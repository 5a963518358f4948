import ShellLowering.Decimal.Numeral
import ShellLowering.Main
import ShellLowering.Proofs.Adjacency
import ShellLowering.Proofs.Background
import ShellLowering.Proofs.DataForm
import ShellLowering.Proofs.DefaultWiring
import ShellLowering.Proofs.Descent
import ShellLowering.Proofs.DescentParse
import ShellLowering.Proofs.ErrorPosition
import ShellLowering.Proofs.InputPaths
import ShellLowering.Proofs.JoinedLists
import ShellLowering.Proofs.LoweredGrammar
import ShellLowering.Proofs.NamelessCommand
import ShellLowering.Proofs.ParseYield
import ShellLowering.Proofs.PipedSession
import ShellLowering.Proofs.PrintoutReading
import ShellLowering.Proofs.ReadableTokens
import ShellLowering.Proofs.References
import ShellLowering.Proofs.SegmentYield
import ShellLowering.Proofs.ShiftedReading
import ShellLowering.Proofs.ShortCircuit
import ShellLowering.Proofs.StageOrder
import ShellLowering.Proofs.StageYield
import ShellLowering.Proofs.TokenEncoding
import ShellLowering.Proofs.UniformChain
import ShellLowering.Proofs.GroupGrammar
import ShellLowering.Proofs.UnquotedText
import ShellLowering.Proofs.Interleaving
import ShellLowering.Proofs.DescriptorTable
import ShellLowering.Proofs.DigitLimit
import ShellLowering.Proofs.LoweringDefects
