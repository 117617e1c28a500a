import Tilewalk.Machine.Scripted
import Tilewalk.Main
import Tilewalk.Proofs.Session.Pending
import Tilewalk.Screen.Held
import Tilewalk.Proofs.Session.FailFast
import Tilewalk.Proofs.Session.AnyScreen
import Tilewalk.Proofs.Level.Reachable
import Tilewalk.Proofs.Json.Reader
import Tilewalk.Proofs.Json.Record
import Tilewalk.Proofs.Level.Document
import Tilewalk.Proofs.Level.RoundTrip
import Tilewalk.Proofs.Level.Link
import Tilewalk.Proofs.Session.Deeds
import Tilewalk.Proofs.Session.Changes
import Tilewalk.Proofs.Session.Story
import Tilewalk.Proofs.Session.Orders
import Tilewalk.Proofs.Session.Faultless
import Tilewalk.Proofs.Session.Pausing
import Tilewalk.Proofs.Session.Sharing
import Tilewalk.Proofs.Session.Refusals
import Tilewalk.Proofs.Session.Tickets
import Tilewalk.Proofs.Session.Counts
import Tilewalk.Proofs.Machine.Halting
import Tilewalk.Proofs.CommandLine.Rounds
import Tilewalk.Proofs.CommandLine.ExitStatus
import Tilewalk.Proofs.CommandLine.Aloud
import Tilewalk.Proofs.Session.Cursor
import Tilewalk.Proofs.Session.Locking
import Tilewalk.Proofs.Session.Logged
import Tilewalk.Proofs.Session.Edits
import Tilewalk.Proofs.Session.Frames
import Tilewalk.Proofs.Machine.Limit
import Tilewalk.Proofs.Machine.Footing
import Tilewalk.Proofs.Machine.Reading
import Tilewalk.Proofs.Level.InPlace
import Tilewalk.Proofs.Level.Blueprint
import Tilewalk.Proofs.Text.Unescape
import Tilewalk.Proofs.Level.Positional
import Tilewalk.Proofs.Level.Extraction
import Tilewalk.Proofs.Level.Canonical
import Tilewalk.Proofs.Screen.Clocked
import Tilewalk.Proofs.Session.Budget
import Tilewalk.Proofs.CommandLine.GivingUp
import Tilewalk.Proofs.CommandLine.Pacing
import Tilewalk.Proofs.Machine.Turned
import Tilewalk.Proofs.Machine.Endless
import Tilewalk.Proofs.Level.History
import Tilewalk.Proofs.Tape
import Tilewalk.Proofs.Level.OlderReaders
