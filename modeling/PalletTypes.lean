import PalletTypes.Main
import PalletTypes.Proofs.Aggregation.Check
import PalletTypes.Proofs.Decimal.Shortest
import PalletTypes.Proofs.Json.Number
import PalletTypes.Proofs.Json.StringLiteral
import PalletTypes.Proofs.Text.Utf8
import PalletTypes.Proofs.Json.Completeness
import PalletTypes.Proofs.Json.Soundness
import PalletTypes.Proofs.Json.WrittenNumber
import PalletTypes.Proofs.Json.WrittenString
import PalletTypes.Proofs.Json.Readable
import PalletTypes.Proofs.Json.Layout
import PalletTypes.Proofs.Json.Derivation
import PalletTypes.Proofs.Aggregation.Content
import PalletTypes.Proofs.Aggregation.RoundTrip
import PalletTypes.Proofs.Aggregation.Layers
import PalletTypes.Proofs.Aggregation.FixedPoint
import PalletTypes.Proofs.Aggregation.Result
import PalletTypes.Proofs.Aggregation.Effect
import PalletTypes.Proofs.Aggregation.FailFast
import PalletTypes.Proofs.Aggregation.Accepted
import PalletTypes.Proofs.Aggregation.Failures
import PalletTypes.Proofs.Options.Values
import PalletTypes.Proofs.Program.Exit
import PalletTypes.Proofs.Merge.Account
import PalletTypes.Proofs.Aggregation.Interference
import PalletTypes.Proofs.Aggregation.Cut
import PalletTypes.Proofs.EnvFile
import PalletTypes.Proofs.Configuration
import PalletTypes.Proofs.Aggregation.Undecodable
import PalletTypes.Proofs.Program.Blame
import PalletTypes.Proofs.Aggregation.LineEnds
import PalletTypes.Proofs.Aggregation.Positions
import PalletTypes.Proofs.Aggregation.Arrangement
import PalletTypes.Proofs.EnvFile.Root
import PalletTypes.Proofs.Program.Root
import PalletTypes.Proofs.Merge.Lines
