import WordMachine.Job
import WordMachine.Main
import WordMachine.Session
import WordMachine.Word.Division
import WordMachine.Proofs.Machine.InstructionSet
import WordMachine.Proofs.Session.Invariant
import WordMachine.Proofs.Run.Transparency
import WordMachine.Proofs.Run.Attempts
import WordMachine.Proofs.Run.Budgets
import WordMachine.Proofs.Run.Faults
import WordMachine.Proofs.Session.Breakpoints
import WordMachine.Proofs.Session.Operations
import WordMachine.Proofs.Session.Refusals
import WordMachine.Proofs.WordFile.Scanner
import WordMachine.Proofs.Program.Files
import WordMachine.Proofs.CommandLine.ExitStatus
import WordMachine.Proofs.Session.LastWrite
import WordMachine.Proofs.Run.Lockstep
import WordMachine.Proofs.Machine.Enlargement
import WordMachine.Proofs.Run.Enlargement
import WordMachine.Proofs.Run.Instructions
import WordMachine.Proofs.Run.Independence
import WordMachine.Proofs.Session.LifeCycle
import WordMachine.Proofs.CommandLine.LibraryCalls
import WordMachine.Proofs.Session.Interleaving
import WordMachine.Proofs.Session.Separation
import WordMachine.Proofs.Session.Renewal
import WordMachine.Proofs.Trace.Recording
import WordMachine.Proofs.Machine.Wrapping
import WordMachine.Proofs.WordFile.Layout
import WordMachine.Proofs.WordFile.Concatenation
import WordMachine.Proofs.Program.Countdown
import WordMachine.Proofs.CommandLine.Forms
import WordMachine.Proofs.Memory.Dumps
import WordMachine.Proofs.Run.StraightLine
import WordMachine.Proofs.Job.Data
import WordMachine.Proofs.Registers.Names
import WordMachine.Proofs.Machine.Division
import WordMachine.Proofs.Machine.Comparison
import WordMachine.Proofs.CommandLine.Words
import WordMachine.Proofs.CommandLine.Pairs
import WordMachine.Proofs.Job.Congruence
