import ChipEight.Main
import ChipEight.Session.Call
import ChipEight.Keypad.Hold
import ChipEight.Keypad.Keyboard
import ChipEight.Terminal.Screen
import ChipEight.Proofs.Clock.Pace
import ChipEight.Proofs.Machine.Nesting
import ChipEight.Proofs.Session.Ticks
import ChipEight.Proofs.Session.Waiting
import ChipEight.Proofs.Session.Restarting
import ChipEight.Proofs.Session.Halting
import ChipEight.Proofs.Session.Rendering
import ChipEight.Proofs.Keypad.Digest
import ChipEight.Proofs.Clock.Punctual
import ChipEight.Proofs.Session.Pacing
import ChipEight.Proofs.Session.Frames
import ChipEight.Proofs.Session.Dialects
import ChipEight.Proofs.Machine.Drawing
import ChipEight.Proofs.Session.Rolling
import ChipEight.Proofs.Terminal.Truncating
import ChipEight.Proofs.Machine.Arithmetic
import ChipEight.Proofs.Machine.Covering
import ChipEight.Proofs.Machine.Footprint
import ChipEight.Proofs.Session.Timers
import ChipEight.Proofs.Machine.Transfer
import ChipEight.Proofs.Keypad.Expiry
import ChipEight.Proofs.Program.Steady
import ChipEight.Proofs.Terminal.Lossless
import ChipEight.Proofs.Memory.Bytewise
import ChipEight.Proofs.Session.LongRuns
