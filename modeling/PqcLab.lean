import PqcLab.Library.Digits
import PqcLab.Library.Binary64
import PqcLab.Library.Decimal
import PqcLab.Analysis.Values
import PqcLab.Library.Calendar
import PqcLab.Library.Glob
import PqcLab.Library.Search
import PqcLab.Analysis.Bench
import PqcLab.Analysis.Perf
import PqcLab.Analysis.Results
import PqcLab.Analysis.Summary
import PqcLab.Bench.Client
import PqcLab.Bench.ReadBack
import PqcLab.Runner.History
import PqcLab.Runner.Latest
import PqcLab.Runner.RunCount
import PqcLab.Runner.ListFile
import PqcLab.Analysis.Failures
import PqcLab.Analysis.Selection
import PqcLab.Library.Script
import PqcLab.Pki.GenChain
import PqcLab.Pki.ServedChain
import PqcLab.Analysis.Robust
import PqcLab.Analysis.Agreement
import PqcLab.Analysis.Percentile
import PqcLab.Pki.Faithful
import PqcLab.Pki.Gate
import PqcLab.Library.FileTree
import PqcLab.Pki.OutputTree
import PqcLab.Analysis.Inspect
import PqcLab.Library.Buffer
import PqcLab.Library.Interleaving
import PqcLab.Library.Kem
import PqcLab.Oqs.Generation
import PqcLab.Oqs.HybridKem
import PqcLab.Oqs.PeerInput
import PqcLab.Oqs.Signature
import PqcLab.Runner.Lab
import PqcLab.Runner.Pipeline
import PqcLab.Oqs.Certificate
import PqcLab.Oqs.KeyFile
