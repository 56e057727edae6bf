import QuantizedGemm.Arith
import QuantizedGemm.Binary.Arithmetic
import QuantizedGemm.Binary.Format
import QuantizedGemm.Binary.Rounding
import QuantizedGemm.Bytes
import QuantizedGemm.Capabilities
import QuantizedGemm.Checked
import QuantizedGemm.Conformance.CommandLine
import QuantizedGemm.Conformance.Help
import QuantizedGemm.Conformance.Invocation
import QuantizedGemm.Conformance.LogFilter
import QuantizedGemm.Conformance.Report
import QuantizedGemm.Convolution
import QuantizedGemm.Decimal.Shortest
import QuantizedGemm.Decimal.Style
import QuantizedGemm.Error
import QuantizedGemm.Execution
import QuantizedGemm.Indirection
import QuantizedGemm.Isa
import QuantizedGemm.Kernel.Call
import QuantizedGemm.Kernel.EightColumn
import QuantizedGemm.Kernel.FourColumn
import QuantizedGemm.Kernel.Lanes
import QuantizedGemm.Kernel.Microkernel
import QuantizedGemm.Kernel.Portable
import QuantizedGemm.Log
import QuantizedGemm.Main
import QuantizedGemm.Oracle
import QuantizedGemm.OutputQuantization
import QuantizedGemm.Packing
import QuantizedGemm.Pattern.Basic
import QuantizedGemm.Pattern.Reader
import QuantizedGemm.Pattern.Support
import QuantizedGemm.Pattern.Token
import QuantizedGemm.Problem
import QuantizedGemm.Quantization.Args
import QuantizedGemm.Quantization.Params
import QuantizedGemm.Quantization.Requantize
import QuantizedGemm.Quantization.Stage
import QuantizedGemm.Random.ChaCha
import QuantizedGemm.Random.Draw
import QuantizedGemm.Random.WordSource
import QuantizedGemm.Registry
import QuantizedGemm.Registry.Session
import QuantizedGemm.Scenario
import QuantizedGemm.Settings
import QuantizedGemm.Tampering
import QuantizedGemm.TestCase
import QuantizedGemm.Text.Alphanumeric
import QuantizedGemm.Text.Blank
import QuantizedGemm.Text.Letter
import QuantizedGemm.Text.Number
import QuantizedGemm.Text.Numeral
import QuantizedGemm.Text.Quoted
import QuantizedGemm.Text.Ranges
import QuantizedGemm.Text.Slice
import QuantizedGemm.Text.Unprintable
import QuantizedGemm.Tile
import QuantizedGemm.Variant
import QuantizedGemm.WrappingSum
import QuantizedGemm.Proofs.Binary.Operations
import QuantizedGemm.Proofs.Binary.Order
import QuantizedGemm.Proofs.Binary.Scaled
import QuantizedGemm.Proofs.Binary.Word
import QuantizedGemm.Proofs.Bytes
import QuantizedGemm.Proofs.Checked
import QuantizedGemm.Proofs.Conformance.Accounting
import QuantizedGemm.Proofs.Convolution.Direct
import QuantizedGemm.Proofs.Convolution.Table
import QuantizedGemm.Proofs.Convolution.Window
import QuantizedGemm.Proofs.Indirection
import QuantizedGemm.Proofs.Kernel.Bounds
import QuantizedGemm.Proofs.Kernel.Catalogue
import QuantizedGemm.Proofs.Kernel.Frame
import QuantizedGemm.Proofs.Kernel.NonInterference
import QuantizedGemm.Proofs.Kernel.Portable
import QuantizedGemm.Proofs.Kernel.Run
import QuantizedGemm.Proofs.Kernel.Vector
import QuantizedGemm.Proofs.Kernel.VectorStage
import QuantizedGemm.Proofs.Kernel.VectorSums
import QuantizedGemm.Proofs.Oracle
import QuantizedGemm.Proofs.Oracle.Comparison
import QuantizedGemm.Proofs.Oracle.Exact
import QuantizedGemm.Proofs.Oracle.Quantization
import QuantizedGemm.Proofs.Oracle.Sites
import QuantizedGemm.Proofs.Outcome
import QuantizedGemm.Proofs.OutputQuantization
import QuantizedGemm.Proofs.OutputQuantization.ZeroPoint
import QuantizedGemm.Proofs.Packing
import QuantizedGemm.Proofs.Packing.Lossless
import QuantizedGemm.Proofs.Primes
import QuantizedGemm.Proofs.Problem
import QuantizedGemm.Proofs.Problem.Arrangement
import QuantizedGemm.Proofs.Problem.Layout
import QuantizedGemm.Proofs.Problem.Presentation
import QuantizedGemm.Proofs.Quantization.Agreement
import QuantizedGemm.Proofs.Quantization.Closeness
import QuantizedGemm.Proofs.Quantization.Derivation
import QuantizedGemm.Proofs.Quantization.Families
import QuantizedGemm.Proofs.Quantization.FixedPoint
import QuantizedGemm.Proofs.Quantization.FixedPointStage
import QuantizedGemm.Proofs.Quantization.Magic
import QuantizedGemm.Proofs.Quantization.Monotone
import QuantizedGemm.Proofs.Random.Draw
import QuantizedGemm.Proofs.Refusals
import QuantizedGemm.Proofs.Registry.Session
import QuantizedGemm.Proofs.Scenario.Coverage
import QuantizedGemm.Proofs.Scenario.Passing
import QuantizedGemm.Proofs.Scenario.Sizes
import QuantizedGemm.Proofs.Settings
import QuantizedGemm.Proofs.TestCase
import QuantizedGemm.Proofs.Text.Numeral
import QuantizedGemm.Proofs.Tile
import QuantizedGemm.Proofs.WrappingSum
