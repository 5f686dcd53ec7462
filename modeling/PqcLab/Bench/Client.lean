import PqcLab.Library.Csv
import PqcLab.Library.Decimal

/-! `bench/tls_bench_client.c` -/

namespace PqcLab.Bench

open Digits Decimal Binary64

structure Timespec where
  tvSec : ℤ
  tvNsec : ℕ
  nsecFits : tvNsec < 10 ^ 9

namespace Timespec

def milliseconds (t : Timespec) : ℚ := t.tvSec * 1000 + t.tvNsec / 10 ^ 6

end Timespec

/-- `elapsed_ms`: each `double` operation rounds. -/
def elapsedMs (start stop : Timespec) : ℚ :=
  let sec : ℤ := stop.tvSec - start.tvSec
  let nsec : ℤ := stop.tvNsec - start.tvNsec
  nearest (nearest (nearest sec * 1000) + nearest (nearest nsec / 10 ^ 6))

/-- One turn of the loop of `measure_chain`: a certificate, or a null pointer. -/
def addDer (chainBytes : ℤ) : Option ℤ → ℤ
  | some derLen => if derLen > 0 then chainBytes + derLen else chainBytes
  | none => chainBytes

/-- `measure_chain`, on the stack of peer certificates and the peer certificate: the DER size that
`i2d_X509` returns for each, and nothing for a null pointer. -/
def measureChain (chain : Option (List (Option ℤ))) (peer : Option ℤ) : ℤ × ℤ :=
  let (chainLen, chainBytes) : ℤ × ℤ := match chain with
    | none => (0, 0)
    | some certs => (certs.length, certs.foldl addDer 0)
  if chainLen = 0 then
    match peer with
    | some derLen => (1, if derLen > 0 then derLen else chainBytes)
    | none => (chainLen, chainBytes)
  else (chainLen, chainBytes)

/-- The two clock readings around `SSL_connect`, whose seconds subtract as `long`s, and the byte
counters of the BIOs. -/
structure Attempt where
  start : Timespec
  stop : Timespec
  ordered : start.milliseconds ≤ stop.milliseconds
  secFits : stop.tvSec - start.tvSec < 2 ^ 63
  bytesRead : ℕ
  bytesWritten : ℕ
  readFits : bytesRead < 2 ^ 63
  writtenFits : bytesWritten < 2 ^ 63

/-- The DER sizes of the certificates the peer sent; both the sizes and their count are `int`s. -/
structure PeerCerts where
  derLens : List ℕ
  countFits : derLens.length < 2 ^ 31
  sizesFit : ∀ derLen ∈ derLens, derLen < 2 ^ 31

/-- What `SSL_get_error` returns after a failure: an `int` other than `SSL_ERROR_NONE`. -/
structure SslError where
  code : ℤ
  nonzero : code ≠ 0
  fits : code.natAbs ≤ 2 ^ 31

inductive Outcome
  | connectFailed
  | sslNewFailed
  | sniFailed
  | setFdFailed
  | handshakeFailed (attempt : Attempt) (error : SslError)
  | handshakeDone (attempt : Attempt) (certs : PeerCerts)

def header : Text :=
  "run_id,elapsed_ms,success,ssl_error,bytes_read,bytes_written,chain_len,chain_bytes\n".toList

/-- `printf("%d,0.0,0,-1,0,0,0,0\n", i)` -/
def printFailure (i : ℕ) : Text := decimal i ++ ",0.0,0,-1,0,0,0,0\n".toList

/-- `printf("%d,%.3f,%d,%d,%ld,%ld,%ld,%ld\n", ...)` -/
def printRun (i : ℕ) (ms : ℚ) (success sslErr bytesRead bytesWritten chainLen chainBytes : ℤ) : Text :=
  decimal i ++ ',' :: (fixed 3 ms ++ ',' :: (signed success ++ ',' :: (signed sslErr ++ ',' ::
    (signed bytesRead ++ ',' :: (signed bytesWritten ++ ',' :: (signed chainLen ++ ',' ::
      (signed chainBytes ++ ['\n'])))))))

def run (i : ℕ) : Outcome → Text
  | .connectFailed | .sslNewFailed | .sniFailed | .setFdFailed => printFailure i
  | .handshakeFailed a error =>
    printRun i (elapsedMs a.start a.stop) 0 error.code a.bytesRead a.bytesWritten 0 0
  | .handshakeDone a certs =>
    let (chainLen, chainBytes) := measureChain
      (some (certs.derLens.map fun (derLen : ℕ) => some (derLen : ℤ)))
      (certs.derLens.head?.map fun (derLen : ℕ) => (derLen : ℤ))
    printRun i (elapsedMs a.start a.stop) 1 0 a.bytesRead a.bytesWritten chainLen chainBytes

def runs (i : ℕ) : List Outcome → Text
  | [] => []
  | outcome :: outcomes => run i outcome ++ runs (i + 1) outcomes

structure Setup where
  providersLoaded : Bool
  ctxCreated : Bool
  protocolSet : Bool
  cafileLoaded : Bool
  groupsSet : Bool

def Setup.succeeds (s : Setup) : Bool :=
  s.providersLoaded && s.ctxCreated && s.protocolSet && s.cafileLoaded && s.groupsSet

structure Exit where
  stdout : Text
  code : ℕ
  deriving DecidableEq

/-- `main`: its six arguments, its setup, and the outcome of each run. -/
def main (args : List Text) (setup : Setup) (outcome : ℕ → Outcome) : Exit :=
  match args with
  | [_host, _port, _groups, _cafile, _sni, argument] =>
    let runCount := atoi argument
    if runCount ≤ 0 then ⟨[], 1⟩
    else if !setup.succeeds then ⟨[], 1⟩
    else ⟨header ++ runs 1 ((List.range' 1 runCount.toNat).map outcome), 0⟩
  | _ => ⟨[], 1⟩

end PqcLab.Bench
