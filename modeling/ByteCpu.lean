import ByteCpu.Main
import ByteCpu.Proofs.Machine.Instr
import ByteCpu.Proofs.Machine.Table
import ByteCpu.Proofs.Machine.Semantics
import ByteCpu.Proofs.Machine.Sinks
import ByteCpu.Proofs.Machine.Runs
import ByteCpu.Proofs.Machine.Calls
import ByteCpu.Proofs.Machine.Resumption
import ByteCpu.Proofs.Machine.Faults
import ByteCpu.Proofs.Machine.Limits
import ByteCpu.Proofs.Machine.Stack
import ByteCpu.Proofs.Program.Grammar
import ByteCpu.Proofs.Program.BadToken
import ByteCpu.Proofs.Program.Parsing
import ByteCpu.Proofs.Program.Concatenation
import ByteCpu.Proofs.Program.Spelling
import ByteCpu.Proofs.Machine.Counter
import ByteCpu.Proofs.Machine.Straight
import ByteCpu.Proofs.Listing.Sweep
import ByteCpu.Proofs.Listing.Lockstep
import ByteCpu.Proofs.Text.Numerals
import ByteCpu.Proofs.Listing.Readback
import ByteCpu.Proofs.Listing.Composition
import ByteCpu.Proofs.Machine.Comparison
import ByteCpu.Proofs.Machine.Halting
import ByteCpu.Proofs.Machine.Output
import ByteCpu.Proofs.Machine.Writes
import ByteCpu.Proofs.Machine.Footprint
import ByteCpu.Proofs.Log.TraceLine
import ByteCpu.Proofs.Machine.Logs
import ByteCpu.Proofs.Command.Running
import ByteCpu.Proofs.Command.Operand
import ByteCpu.Proofs.Settings.Sessions
import ByteCpu.Proofs.Machine.RegisterFile
import ByteCpu.Proofs.Text.Utf8
import ByteCpu.Proofs.Settings.StepLimit
import ByteCpu.Proofs.Command.Loading
import ByteCpu.Proofs.Listing.Display
import ByteCpu.Proofs.Machine.Memories
