import PqcLab.Analysis.Summary
import PqcLab.Bench.ReadBack
import PqcLab.Pki.GenChain
import PqcLab.Runner.Scenario

/-! `runner/run_openssl_server.sh`, and the chain that its clients measure. -/

namespace PqcLab.Pki

open Bench Digits Runner Script

/-- The arguments of `openssl s_server` that its caller or a profile decides, each file by what it
holds. -/
structure ServerArgs where
  accept : Text
  groups : Text
  cert : Option Certificate
  caFile : Option Certificate
  certChain : Option (List Certificate)

/-- `run_openssl_server.sh`; `-s` holds of a file that exists and is not empty. -/
def runOpensslServer (dir : OutDir) (tlsGroup : Text) (port : Option Text) : ServerArgs where
  accept := orDefault port "4433".toList
  groups := tlsGroup
  cert := dir.serverCrt
  caFile := dir.rootCrt
  certChain := dir.servedChain.filter (· ≠ [])

def issuers (store : List Certificate) : ℕ → Certificate → List Certificate
  | 0, _ => []
  | n + 1, cert =>
    if cert.issuerKey = cert.key then []
    else match store.find? fun ca => ca.key = cert.issuerKey with
      | some ca => ca :: issuers store n ca
      | none => []

structure SServer where
  sends : ServerArgs → List Certificate
  /-- With `-cert_chain` it sends that chain. -/
  given : ∀ args cert chain, args.cert = some cert → args.certChain = some chain →
    sends args = cert :: chain
  /-- Without it, the issuers that it can build from `-CAfile`. -/
  built : ∀ args cert ca, args.cert = some cert → args.caFile = some ca → args.certChain = none →
    sends args = cert :: issuers [ca] 1 cert

def SServer.Presents (server : SServer) (args : ServerArgs) (certs : PeerCerts) : Prop :=
  certs.derLens = (server.sends args).map fun cert => (cert.derBytes : ℕ)

def measured (certs : PeerCerts) : ℤ × ℤ :=
  measureChain (some (certs.derLens.map fun (derLen : ℕ) => some (derLen : ℤ)))
    (certs.derLens.head?.map fun (derLen : ℕ) => (derLen : ℤ))

def RecordedAsMeasured (server : SServer) (args : ServerArgs) (dir : OutDir) : Prop :=
  ∃ doc, dir.chainJson = some (.document doc) ∧ ∀ certs, server.Presents args certs →
    doc.blockItem "served_chain".toList "len".toList = .ok (.num (measured certs).1) ∧
    doc.blockItem "served_chain".toList "der_bytes".toList = .ok (.num (measured certs).2) ∧
    ∀ fields, chainFields doc = .ok fields → fields.servedChainDerBytes = .num (measured certs).2

variable {jq : Jq} {openssl : Openssl} {server : SServer} {p : Profile} {i : Invocation}
  {before after : OutDir} {tlsGroup : Text} {port : Option Text} {certs : PeerCerts}

theorem chainDoc_served {a : Accounts} {output : Text} {doc : Json}
    (written : p.chainDoc jq a output = some doc) :
    doc.blockItem "served_chain".toList "len".toList = .ok (.num a.servedChainLen) ∧
      doc.blockItem "served_chain".toList "der_bytes".toList = .ok (.num a.servedChainDerBytes) := by
  simp only [Profile.chainDoc, Option.bind_eq_bind, Option.bind_eq_some_iff] at written
  obtain ⟨_, _, _, _, _, _, _, _, len, lenRead, bytes, bytesRead, same⟩ := written
  injection same with same
  subst same
  rw [Jq.argjson_decimal lenRead, Jq.argjson_decimal bytesRead]
  exact ⟨rfl, rfl⟩

theorem measured_eq (certs : PeerCerts) :
    measured certs = ((certs.derLens.length : ℤ), (certs.derLens.sum : ℤ)) :=
  measureChain_derLens certs.derLens

theorem sends_deep (deep : p.deep) {output : Text} {doc : Json} :
    server.sends (runOpensslServer (i.completed p output doc) tlsGroup port) = [i.leaf p, i.intermediate] := by
  refine server.given _ _ _ rfl ?_
  simp [runOpensslServer, Invocation.completed, Invocation.issued, Invocation.servedChain, deep]

/-- Another chain is empty, and the server adds the root it is given to verify its clients. -/
theorem sends_shallow (shallow : ¬ p.deep) {output : Text} {doc : Json} :
    server.sends (runOpensslServer (i.completed p output doc) tlsGroup port) = [i.leaf p, i.root] := by
  have own : i.rootKey ≠ i.leafKey := by
    have fresh := i.fresh
    simp only [List.nodup_cons, List.mem_cons, List.not_mem_nil] at fresh
    grind
  rw [server.built _ (i.leaf p) i.root rfl rfl (by
    simp [runOpensslServer, Invocation.completed, Invocation.issued, Invocation.servedChain, shallow])]
  simp [issuers, Invocation.leaf, Invocation.root, shallow, own]

theorem presents_deep (deep : p.deep) {output : Text} {doc : Json}
    (presented : server.Presents (runOpensslServer (i.completed p output doc) tlsGroup port) certs) :
    measured certs = (2, (i.leafDer : ℤ) + i.intDer) := by
  unfold SServer.Presents at presented
  rw [sends_deep deep] at presented
  simp [measured_eq, presented, Invocation.leaf, Invocation.intermediate]

theorem presents_shallow (shallow : ¬ p.deep) {output : Text} {doc : Json}
    (presented : server.Presents (runOpensslServer (i.completed p output doc) tlsGroup port) certs) :
    measured certs = (2, (i.leafDer : ℤ) + i.rootDer) := by
  unfold SServer.Presents at presented
  rw [sends_shallow shallow] at presented
  simp [measured_eq, presented, Invocation.leaf, Invocation.root]

def twoCerts (first second : DerSize) : PeerCerts where
  derLens := [first, second]
  countFits := by simp
  sizesFit := by
    intro derLen member
    rcases List.mem_pair.mp member with rfl | rfl
    · exact first.isLt
    · exact second.isLt

theorem measured_twoCerts (first second : DerSize) :
    measured (twoCerts first second) = (2, (first : ℤ) + second) := by
  simp [measured_eq, twoCerts]

theorem presents_twoCerts (shallow : ¬ p.deep) {output : Text} {doc : Json} :
    server.Presents (runOpensslServer (i.completed p output doc) tlsGroup port)
      (twoCerts i.leafDer i.rootDer) := by
  unfold SServer.Presents
  rw [sends_shallow shallow]
  rfl

/-- The record agrees with the measurements exactly for the profiles of depth 3: below that the server
sends the root as well. -/
theorem served_chain_as_measured_iff
    (completed : run (p.genChain jq openssl i) before = .ok after) :
    RecordedAsMeasured server (runOpensslServer after tlsGroup port) after ↔ p.depth = ['3'] := by
  obtain ⟨-, output, doc, -, written, rfl⟩ := genChain_ok.mp completed
  obtain ⟨len, bytes⟩ := chainDoc_served written
  change _ ↔ p.deep
  constructor
  · rintro ⟨recorded, file, agree⟩
    cases file
    by_contra shallow
    have two := (agree _ (presents_twoCerts shallow)).1
    rw [len, measured_twoCerts] at two
    simp [Invocation.accounts, shallow] at two
  · intro deep
    refine ⟨doc, rfl, fun certs presented => ?_⟩
    rw [presents_deep deep presented]
    simp only [Invocation.accounts, deep, if_true] at len bytes
    refine ⟨by simpa using len, by simpa using bytes, fun fields read => ?_⟩
    have republished := (chainFields_ok read).1
    rw [bytes] at republished
    injection republished with same
    simpa using same.symm

def documentedServer : SServer where
  sends args := match args.cert with
    | none => []
    | some cert => cert :: match args.certChain with
      | some chain => chain
      | none => args.caFile.elim [] fun ca => issuers [ca] 1 cert
  given args cert chain certRead chainRead := by simp only [certRead, chainRead]
  built args cert ca certRead caRead chainRead := by simp only [certRead, caRead, chainRead, Option.elim]

def willingOpenssl : Openssl where
  newkey _ := true
  verify _ _ _ := .ok "certs/server.crt: OK".toList

def verifiedOk : Text := "certs/server.crt: OK".toList

theorem willingOpenssl_completes (jq : Jq) (p : Profile) (i : Invocation)
    (written : (p.chainDoc jq (i.accounts p) verifiedOk).isSome = true) {before : OutDir} :
    ∃ doc, p.chainDoc jq (i.accounts p) verifiedOk = some doc ∧
      run (p.genChain jq willingOpenssl i) before = .ok (i.completed p verifiedOk doc) := by
  obtain ⟨doc, written⟩ := Option.isSome_iff_exists.mp written
  exact ⟨doc, written, genChain_ok.mpr ⟨⟨rfl, fun _ => rfl, rfl⟩, verifiedOk, doc, rfl, written, rfl⟩⟩

/-- `profiles/chains/ml_root__ml_leaf.json` -/
def mlRootMlLeaf : Profile where
  profileId := "ml_root__ml_leaf".toList
  depth := ['2']
  rootAlg := "mldsa65".toList
  rootCn := "Lab2 Root ML-DSA".toList
  intAlg := []
  intCn := []
  leafAlg := "mldsa65".toList
  leafCn := "pqc2.server".toList
  leafSan := "pqc2.server".toList

def mlRootMlIntMlLeaf : Profile :=
  { mlRootMlLeaf with
    profileId := "ml_root__ml_int__ml_leaf".toList
    depth := ['3']
    intAlg := "mldsa65".toList
    intCn := "Lab2 Intermediate ML-DSA".toList }

/-- The sizes of the certificates in the tables of the lab. -/
def march2026 : Invocation where
  rootKey := 0
  intKey := 1
  leafKey := 2
  fresh := by decide
  rootDer := 5543
  intDer := 5551
  leafDer := 5579
  profilePath := "/lab/profiles/chains/ml_root__ml_leaf.json".toList
  generatedAt := "2026-03-16T02:09:24Z".toList
  opensslVersion := "OpenSSL 3.4".toList
  outDir := "/lab/pki_factory/output/ml_root__ml_leaf".toList

theorem served_chain_as_measured_deep :
    ∃ after, run (mlRootMlIntMlLeaf.genChain decimalJq willingOpenssl march2026) {} = .ok after ∧
      RecordedAsMeasured documentedServer (runOpensslServer after "mlkem512".toList none) after := by
  obtain ⟨doc, -, completed⟩ :=
    willingOpenssl_completes decimalJq mlRootMlIntMlLeaf march2026 (by decide +kernel)
  exact ⟨_, completed, (served_chain_as_measured_iff completed).mpr rfl⟩

/-- `chain.json` says 5579 bytes, and the clients measure 11122. -/
theorem served_chain_without_root :
    ∃ after doc, run (mlRootMlLeaf.genChain decimalJq willingOpenssl march2026) {} = .ok after ∧
      after.chainJson = some (.document doc) ∧
      doc.blockItem "served_chain".toList "der_bytes".toList = .ok (.num 5579) ∧
      (∀ certs, documentedServer.Presents (runOpensslServer after "mlkem512".toList none) certs →
        measured certs = (2, 11122)) ∧
      ¬ RecordedAsMeasured documentedServer (runOpensslServer after "mlkem512".toList none) after := by
  obtain ⟨doc, written, completed⟩ :=
    willingOpenssl_completes decimalJq mlRootMlLeaf march2026 (by decide +kernel)
  have shallow : ¬ mlRootMlLeaf.deep := by decide
  have sizes certs (presented : documentedServer.Presents (runOpensslServer
      (march2026.completed mlRootMlLeaf verifiedOk doc) "mlkem512".toList none) certs) :
      measured certs = (2, 11122) := presents_shallow shallow presented
  have bytes := (chainDoc_served written).2
  refine ⟨_, doc, completed, rfl, bytes, sizes, ?_⟩
  rintro ⟨recorded, file, agree⟩
  cases file
  have same := (agree _ (presents_twoCerts shallow)).2.1
  rw [bytes, measured_twoCerts] at same
  simp [Invocation.accounts, shallow, march2026] at same

end PqcLab.Pki
