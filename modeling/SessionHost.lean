import SessionHost.Data.Json.Reader
import SessionHost.Main
import SessionHost.Program.Sink
import SessionHost.Proofs.Hall.Identity
import SessionHost.Proofs.Hall.Order
import SessionHost.Proofs.Input.Dictation
import SessionHost.Proofs.Intake.Alone
import SessionHost.Proofs.Program.Drawing
import SessionHost.Proofs.Program.Inheritance
import SessionHost.Proofs.Program.Recycling
import SessionHost.Proofs.Scene.Exchange
import SessionHost.Proofs.Service.Wakeup
import SessionHost.Proofs.Session.Draining
import SessionHost.Proofs.Session.Hint
import SessionHost.Proofs.Toolchain.CommandLines
import SessionHost.Proofs.Utf8.Truncation
import SessionHost.Proofs.Workshop.Alone
import SessionHost.Proofs.Hall.Alone
