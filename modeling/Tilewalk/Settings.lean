import Tilewalk.Colour
import Tilewalk.Files
import Tilewalk.Json.Reader
import Tilewalk.Layout

/-! # Settings

Every section and every field may be left out of a settings document.
-/

namespace Tilewalk

/-- How fast a run goes, and the size of the grid when no level is loaded. -/
structure RunSettings where
  stepMillis : Nat := 500
  defaultCols : Nat := 9
  defaultRows : Nat := 9

/-- The fills for what the head reads. -/
structure StyleSettings where
  emptyFill : Fill := "#E0E"
  red : Fill := "#E33"
  blue : Fill := "#36D"
  green : Fill := "#3B4"
  yellow : Fill := "#EC2"

structure ViewSettings where
  originX : Float := 10
  originY : Float := 10
  cellSize : Float := 56

/-- What share links say. -/
structure ShareSettings where
  title : String := "Sample"
  baseUrl : String := ""

structure Settings where
  run : RunSettings := {}
  style : StyleSettings := {}
  view : ViewSettings := {}
  share : ShareSettings := {}
  initialLevel : Option String := none

/-- How long one step is shown. -/
def RunSettings.stepLength (c : RunSettings) : Duration := .ofMillis c.stepMillis

def StyleSettings.fill (c : StyleSettings) : Symbol → Fill
  | none => c.emptyFill
  | some .red => c.red
  | some .blue => c.blue
  | some .green => c.green
  | some .yellow => c.yellow

def ViewSettings.layout (c : ViewSettings) : Layout := ⟨c.originX, c.originY, c.cellSize⟩

/-! ## Reading -/

section Shapes

open Json Json.Field

/-- Reads a text as it is kept in the settings. -/
def readSetting : Read String := fun cs => do
  let (text, cs) ← readText cs
  .ok (String.ofList text, cs)

def runShape : Shape RunSettings where
  name := "RunConfig"
  blank := {}
  fields := [
    ofRead "step_millis" false readNat64 fun c n => { c with stepMillis := n },
    ofRead "default_cols" false readNat32 fun c n => { c with defaultCols := n },
    ofRead "default_rows" false readNat32 fun c n => { c with defaultRows := n }]

def styleShape : Shape StyleSettings where
  name := "StyleConfig"
  blank := {}
  fields := [
    ofRead "empty_fill" false readSetting fun c fill => { c with emptyFill := fill },
    ofRead "red" false readSetting fun c fill => { c with red := fill },
    ofRead "blue" false readSetting fun c fill => { c with blue := fill },
    ofRead "green" false readSetting fun c fill => { c with green := fill },
    ofRead "yellow" false readSetting fun c fill => { c with yellow := fill }]

def viewShape : Shape ViewSettings where
  name := "ViewConfig"
  blank := {}
  fields := [
    ofRead "origin_x" false readFloat fun c x => { c with originX := x },
    ofRead "origin_y" false readFloat fun c y => { c with originY := y },
    ofRead "cell_size" false readFloat fun c size => { c with cellSize := size }]

def shareShape : Shape ShareSettings where
  name := "ShareConfig"
  blank := {}
  fields := [
    ofRead "title" false readSetting fun c title => { c with title },
    ofRead "base_url" false readSetting fun c url => { c with baseUrl := url }]

def settingsShape : Shape Settings where
  name := "Config"
  blank := {}
  fields := [
    ofRead "run" false runShape.read fun c run => { c with run },
    ofRead "style" false styleShape.read fun c style => { c with style },
    ofRead "view" false viewShape.read fun c view => { c with view },
    ofRead "share" false shareShape.read fun c share => { c with share },
    ofRead "initial_level" false (readOption readSetting) fun c level =>
      { c with initialLevel := level }]

end Shapes

inductive SettingsFault where
  | unreadable (fault : FileFault)
  | malformed (fault : Json.Fault)

namespace SettingsFault

def message : SettingsFault → String
  | unreadable fault => s!"cannot read config: {fault.message}"
  | malformed fault => s!"invalid config: {fault.message}"

end SettingsFault

namespace Settings

def read (text : String) : Except SettingsFault Settings :=
  (Json.readDocument settingsShape.read text.toList).mapError .malformed

/-- Reads the settings document that a file holds. -/
def readFile (files : Files) (name : String) : Except SettingsFault Settings := do
  let text ← (files name).mapError .unreadable
  read text

end Settings

end Tilewalk
