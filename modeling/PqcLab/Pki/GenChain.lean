import PqcLab.Analysis.Values
import PqcLab.Library.Script

/-! `pki_factory/scripts/gen_chain.sh` -/

namespace PqcLab.Pki

open Digits Script

/-- What `i2d_X509` returns for a certificate, an `int`. -/
abbrev DerSize := Fin (2 ^ 31)

structure Certificate where
  key : ℕ
  issuerKey : ℕ
  derBytes : DerSize
  deriving DecidableEq

/-- What the script reads from a profile, as `jq -r` prints it. -/
structure Profile where
  profileId : Text
  depth : Text
  rootAlg : Text
  rootCn : Text
  intAlg : Text
  intCn : Text
  leafAlg : Text
  leafCn : Text
  leafSan : Text

/-- The test `[[ "$DEPTH" == "3" ]]`. -/
def Profile.deep (p : Profile) : Prop := p.depth = ['3']

instance (p : Profile) : Decidable p.deep := inferInstanceAs (Decidable (_ = _))

/-- What one invocation generates or finds outside the profile: three new keys, the sizes of the
certificates, and the texts of its `meta.json`. -/
structure Invocation where
  rootKey : ℕ
  intKey : ℕ
  leafKey : ℕ
  fresh : [rootKey, intKey, leafKey].Nodup
  rootDer : DerSize
  intDer : DerSize
  leafDer : DerSize
  profilePath : Text
  generatedAt : Text
  opensslVersion : Text
  outDir : Text

structure Openssl where
  newkey : Text → Bool
  /-- `openssl verify -CAfile ... -untrusted ... certificate`: its output, when it succeeds or fails. -/
  verify : Option Certificate → Option (List Certificate) → Option Certificate → Except Text Text

/-- The files of `OUT_DIR` that a later command or another program reads. -/
structure OutDir where
  rootCrt : Option Certificate := none
  intermediateCrt : Option Certificate := none
  serverCrt : Option Certificate := none
  servedChain : Option (List Certificate) := none
  verifyTxt : Option Text := none
  chainJson : Option JsonFile := none
  metaJson : Option JsonFile := none

/-- `openssl req -new`, then `openssl x509 -req -CA ...` -/
def issue (openssl : Openssl) (alg : Text) (ca : Option Certificate) (key : ℕ) (derBytes : DerSize) :
    Option Certificate :=
  if openssl.newkey alg then ca.map fun ca => ⟨key, ca.key, derBytes⟩ else none

/-- `ROOT_DER`, `INT_DER`, `LEAF_DER`, `SERVED_CHAIN_LEN` and `SERVED_CHAIN_DER_BYTES` -/
structure Accounts where
  rootDer : ℕ
  intDer : ℕ
  leafDer : ℕ
  servedChainLen : ℕ
  servedChainDerBytes : ℕ

namespace Profile

variable (jq : Jq) (openssl : Openssl) (p : Profile) (i : Invocation)

/-- `rm -rf "$OUT_DIR"` and `mkdir -p` -/
def reset : Command OutDir := fun _ => .ok {}

/-- `openssl req -new -x509`: the root is signed with its own key. -/
def issueRoot : Command OutDir := fun dir =>
  if openssl.newkey p.rootAlg then .ok { dir with rootCrt := some ⟨i.rootKey, i.rootKey, i.rootDer⟩ }
  else .error dir

def issueIntermediate : Command OutDir := fun dir =>
  match issue openssl p.intAlg dir.rootCrt i.intKey i.intDer with
  | some crt => .ok { dir with intermediateCrt := some crt }
  | none => .error dir

def issueLeaf : Command OutDir := fun dir =>
  match issue openssl p.leafAlg (if p.deep then dir.intermediateCrt else dir.rootCrt) i.leafKey i.leafDer with
  | some crt => .ok { dir with serverCrt := some crt }
  | none => .error dir

/-- The shell opens `served_chain.pem` before it runs `cat` or `:`. -/
def writeServedChain : Command OutDir := fun dir =>
  if p.deep then
    match dir.intermediateCrt with
    | some crt => .ok { dir with servedChain := some [crt] }
    | none => .error { dir with servedChain := some [] }
  else .ok { dir with servedChain := some [] }

def verifyOutput (dir : OutDir) : Except Text Text :=
  openssl.verify dir.rootCrt (if p.deep then dir.servedChain else none) dir.serverCrt

def verify : Command OutDir := fun dir =>
  match p.verifyOutput openssl dir with
  | .ok _ => .ok dir
  | .error output => .error { dir with verifyTxt := some (output ++ ['\n']) }

def recordVerify : Command OutDir := fun dir =>
  match p.verifyOutput openssl dir with
  | .ok output | .error output => .ok { dir with verifyTxt := some (output ++ ['\n']) }

def accounts (dir : OutDir) : Option Accounts := do
  let root ← dir.rootCrt
  let leaf ← dir.serverCrt
  if p.deep then
    let intermediate ← dir.intermediateCrt
    -- two `int`s do not overflow the arithmetic of the shell
    return ⟨root.derBytes, intermediate.derBytes, leaf.derBytes, 2, leaf.derBytes + intermediate.derBytes⟩
  else return ⟨root.derBytes, 0, leaf.derBytes, 1, leaf.derBytes⟩

/-- The document that `jq` prints; `none` when it refuses an argument. -/
def chainDoc (a : Accounts) (verifyOutput : Text) : Option Json := do
  let depth ← jq.argjson p.depth
  let rootDer ← jq.argjson (decimal a.rootDer)
  let intDer ← jq.argjson (decimal a.intDer)
  let leafDer ← jq.argjson (decimal a.leafDer)
  let servedChainLen ← jq.argjson (decimal a.servedChainLen)
  let servedChainDerBytes ← jq.argjson (decimal a.servedChainDerBytes)
  return .obj [("profile_id".toList, .str p.profileId),
    ("depth".toList, depth),
    ("root".toList, .obj [("algorithm".toList, .str p.rootAlg),
      ("subject_cn".toList, .str p.rootCn),
      ("der_bytes".toList, rootDer)]),
    ("intermediate".toList,
      if p.intAlg = [] then .null
      else .obj [("algorithm".toList, .str p.intAlg),
        ("subject_cn".toList, .str p.intCn),
        ("der_bytes".toList, intDer)]),
    ("leaf".toList, .obj [("algorithm".toList, .str p.leafAlg),
      ("subject_cn".toList, .str p.leafCn),
      ("san_dns".toList, .str p.leafSan),
      ("der_bytes".toList, leafDer)]),
    ("served_chain".toList, .obj [("len".toList, servedChainLen),
      ("der_bytes".toList, servedChainDerBytes)]),
    ("verify_output".toList, .str verifyOutput)]

/-- The shell opens `chain.json` before it runs `jq`. -/
def writeChainJson : Command OutDir := fun dir =>
  match p.accounts dir, p.verifyOutput openssl dir with
  | some a, .ok output => match p.chainDoc jq a output with
    | some doc => .ok { dir with chainJson := some (.document doc) }
    | none => .error { dir with chainJson := some .empty }
  | _, _ => .error dir

def metaDoc : Json :=
  .obj [("profile_id".toList, .str p.profileId),
    ("source_profile".toList, .str i.profilePath),
    ("generated_at_utc".toList, .str i.generatedAt),
    ("openssl_version".toList, .str i.opensslVersion),
    ("output_dir".toList, .str i.outDir)]

def writeMetaJson : Command OutDir := fun dir =>
  .ok { dir with metaJson := some (.document (p.metaDoc i)) }

def issueCommands : List (Command OutDir) :=
  [reset, p.issueRoot openssl i] ++ (if p.deep then [p.issueIntermediate openssl i] else []) ++
    [p.issueLeaf openssl i, p.writeServedChain]

/-- The script, from the removal of `OUT_DIR` on. -/
def genChain : List (Command OutDir) :=
  p.issueCommands openssl i ++
    [p.verify openssl, p.recordVerify openssl, p.writeChainJson jq openssl, p.writeMetaJson i]

end Profile

namespace Invocation

variable (i : Invocation)

def root : Certificate := ⟨i.rootKey, i.rootKey, i.rootDer⟩

def intermediate : Certificate := ⟨i.intKey, i.rootKey, i.intDer⟩

def leaf (p : Profile) : Certificate := ⟨i.leafKey, if p.deep then i.intKey else i.rootKey, i.leafDer⟩

def servedChain (p : Profile) : List Certificate := if p.deep then [i.intermediate] else []

end Invocation

variable {jq : Jq} {openssl : Openssl} {p : Profile} {i : Invocation} {before after dir : OutDir}

theorem issueRoot_ok :
    p.issueRoot openssl i before = .ok after ↔
      openssl.newkey p.rootAlg = true ∧ after = { before with rootCrt := some i.root } := by
  unfold Profile.issueRoot
  split_ifs with taken
  · simp [taken, Invocation.root, eq_comm]
  · simp [taken]

theorem issueIntermediate_ok (root : before.rootCrt = some i.root) :
    p.issueIntermediate openssl i before = .ok after ↔
      openssl.newkey p.intAlg = true ∧
        after = { before with intermediateCrt := some i.intermediate } := by
  unfold Profile.issueIntermediate issue
  rw [root]
  by_cases taken : openssl.newkey p.intAlg = true
  · simp [taken, Invocation.root, Invocation.intermediate, eq_comm]
  · simp [taken]

theorem issueLeaf_ok (root : before.rootCrt = some i.root)
    (intermediate : p.deep → before.intermediateCrt = some i.intermediate) :
    p.issueLeaf openssl i before = .ok after ↔
      openssl.newkey p.leafAlg = true ∧ after = { before with serverCrt := some (i.leaf p) } := by
  unfold Profile.issueLeaf issue
  by_cases taken : openssl.newkey p.leafAlg = true
  · by_cases deep : p.deep
    · simp [taken, deep, intermediate, Invocation.intermediate, Invocation.leaf, eq_comm]
    · simp [taken, deep, root, Invocation.root, Invocation.leaf, eq_comm]
  · simp [taken]

theorem writeServedChain_ok (intermediate : p.deep → before.intermediateCrt = some i.intermediate) :
    p.writeServedChain before = .ok { before with servedChain := some (i.servedChain p) } := by
  unfold Profile.writeServedChain Invocation.servedChain
  by_cases deep : p.deep
  · simp [deep, intermediate]
  · simp [deep]

theorem verify_ok :
    p.verify openssl before = .ok after ↔
      (∃ output, p.verifyOutput openssl before = .ok output) ∧ after = before := by
  unfold Profile.verify
  cases p.verifyOutput openssl before with
  | ok output => simp [eq_comm]
  | error output => simp

theorem recordVerify_ok {output : Text} (verified : p.verifyOutput openssl before = .ok output) :
    p.recordVerify openssl before = .ok { before with verifyTxt := some (output ++ ['\n']) } := by
  unfold Profile.recordVerify
  rw [verified]

theorem writeChainJson_ok :
    p.writeChainJson jq openssl before = .ok after ↔
      ∃ a output doc, p.accounts before = some a ∧ p.verifyOutput openssl before = .ok output ∧
        p.chainDoc jq a output = some doc ∧
        { before with chainJson := some (.document doc) } = after := by
  unfold Profile.writeChainJson
  cases p.accounts before with
  | none => simp
  | some a =>
    cases p.verifyOutput openssl before with
    | error output => simp
    | ok output =>
      cases written : p.chainDoc jq a output with
      | none => simp [written]
      | some doc => simp [written]

def Invocation.issued (i : Invocation) (p : Profile) : OutDir where
  rootCrt := some i.root
  intermediateCrt := if p.deep then some i.intermediate else none
  serverCrt := some (i.leaf p)
  servedChain := some (i.servedChain p)

/-- The accounts of the issued certificates: a served chain is counted with its leaf. -/
def Invocation.accounts (i : Invocation) (p : Profile) : Accounts :=
  if p.deep then ⟨i.rootDer, i.intDer, i.leafDer, 2, i.leafDer + i.intDer⟩
  else ⟨i.rootDer, 0, i.leafDer, 1, i.leafDer⟩

theorem accounts_issued (verifyTxt : Option Text) :
    p.accounts { i.issued p with verifyTxt } = some (i.accounts p) := by
  unfold Profile.accounts Invocation.accounts Invocation.issued
  by_cases deep : p.deep
  · simp [deep, Invocation.root, Invocation.intermediate, Invocation.leaf]
  · simp [deep, Invocation.root, Invocation.leaf]

def Invocation.completed (i : Invocation) (p : Profile) (output : Text) (doc : Json) : OutDir :=
  { i.issued p with
    verifyTxt := some (output ++ ['\n'])
    chainJson := some (.document doc)
    metaJson := some (.document (p.metaDoc i)) }

theorem run_root_ok :
    run [Profile.reset, p.issueRoot openssl i] before = .ok after ↔
      openssl.newkey p.rootAlg = true ∧ after = { rootCrt := some i.root } := by
  simp only [run_cons_ok, Profile.reset, Except.ok.injEq, issueRoot_ok, run_nil]
  grind

theorem run_intermediate_ok :
    run (if p.deep then [p.issueIntermediate openssl i] else []) { rootCrt := some i.root } = .ok after ↔
      (p.deep → openssl.newkey p.intAlg = true) ∧
        after = { rootCrt := some i.root, intermediateCrt := (i.issued p).intermediateCrt } := by
  by_cases deep : p.deep
  · simp only [if_pos deep, run_cons_ok, issueIntermediate_ok, run_nil, Invocation.issued]
    grind
  · simp only [if_neg deep, run_nil, Invocation.issued]
    grind

theorem run_leaf_ok :
    run [p.issueLeaf openssl i, p.writeServedChain]
        { rootCrt := some i.root, intermediateCrt := (i.issued p).intermediateCrt } = .ok after ↔
      openssl.newkey p.leafAlg = true ∧ after = i.issued p := by
  have present (deep : p.deep) : (i.issued p).intermediateCrt = some i.intermediate := by
    simp [Invocation.issued, deep]
  have leaf (next : OutDir) : p.issueLeaf openssl i
      { rootCrt := some i.root, intermediateCrt := (i.issued p).intermediateCrt } = .ok next ↔
      openssl.newkey p.leafAlg = true ∧ next = { i.issued p with servedChain := none } :=
    issueLeaf_ok rfl present
  have served : p.writeServedChain { i.issued p with servedChain := none } = .ok (i.issued p) :=
    writeServedChain_ok present
  constructor
  · intro completed
    obtain ⟨next, issued, completed⟩ := run_cons_ok.mp completed
    obtain ⟨taken, rfl⟩ := (leaf next).mp issued
    obtain ⟨last, written, ended⟩ := run_cons_ok.mp completed
    rw [served] at written
    cases written
    cases ended
    exact ⟨taken, rfl⟩
  · rintro ⟨taken, rfl⟩
    exact run_cons_ok.mpr ⟨_, (leaf _).mpr ⟨taken, rfl⟩, run_cons_ok.mpr ⟨_, served, rfl⟩⟩

theorem issueCommands_ok :
    run (p.issueCommands openssl i) before = .ok after ↔
      (openssl.newkey p.rootAlg = true ∧ (p.deep → openssl.newkey p.intAlg = true) ∧
        openssl.newkey p.leafAlg = true) ∧ after = i.issued p := by
  constructor
  · intro completed
    obtain ⟨second, first, last⟩ := run_append_ok.mp completed
    obtain ⟨next, root, middle⟩ := run_append_ok.mp first
    obtain ⟨rootTaken, rfl⟩ := run_root_ok.mp root
    obtain ⟨intTaken, rfl⟩ := run_intermediate_ok.mp middle
    obtain ⟨leafTaken, same⟩ := run_leaf_ok.mp last
    exact ⟨⟨rootTaken, intTaken, leafTaken⟩, same⟩
  · rintro ⟨⟨rootTaken, intTaken, leafTaken⟩, same⟩
    refine run_append_ok.mpr ⟨_, run_append_ok.mpr ⟨_, run_root_ok.mpr ⟨rootTaken, rfl⟩, ?_⟩,
      run_leaf_ok.mpr ⟨leafTaken, same⟩⟩
    exact run_intermediate_ok.mpr ⟨intTaken, rfl⟩

def Invocation.verified (i : Invocation) (p : Profile) (output : Text) : OutDir :=
  { i.issued p with verifyTxt := some (output ++ ['\n']) }

theorem verifiedCommands_ok :
    run (p.issueCommands openssl i ++ [p.verify openssl, p.recordVerify openssl]) before = .ok after ↔
      (openssl.newkey p.rootAlg = true ∧ (p.deep → openssl.newkey p.intAlg = true) ∧
        openssl.newkey p.leafAlg = true) ∧
      ∃ output, p.verifyOutput openssl (i.issued p) = .ok output ∧ after = i.verified p output := by
  constructor
  · intro completed
    obtain ⟨dir, issued, completed⟩ := run_append_ok.mp completed
    obtain ⟨taken, rfl⟩ := issueCommands_ok.mp issued
    refine ⟨taken, ?_⟩
    obtain ⟨dir, checked, completed⟩ := run_cons_ok.mp completed
    obtain ⟨⟨output, verified⟩, rfl⟩ := verify_ok.mp checked
    obtain ⟨dir, recorded, completed⟩ := run_cons_ok.mp completed
    rw [recordVerify_ok verified] at recorded
    cases recorded
    cases completed
    exact ⟨output, verified, rfl⟩
  · rintro ⟨taken, output, verified, rfl⟩
    refine run_append_ok.mpr ⟨_, issueCommands_ok.mpr ⟨taken, rfl⟩, ?_⟩
    refine run_cons_ok.mpr ⟨_, verify_ok.mpr ⟨⟨output, verified⟩, rfl⟩, ?_⟩
    exact run_cons_ok.mpr ⟨_, recordVerify_ok verified, rfl⟩

theorem genChain_split :
    p.genChain jq openssl i = (p.issueCommands openssl i ++ [p.verify openssl, p.recordVerify openssl]) ++
      [p.writeChainJson jq openssl, p.writeMetaJson i] := by
  rw [List.append_assoc]
  rfl

theorem genChain_ok :
    run (p.genChain jq openssl i) before = .ok after ↔
      (openssl.newkey p.rootAlg = true ∧ (p.deep → openssl.newkey p.intAlg = true) ∧
        openssl.newkey p.leafAlg = true) ∧
      ∃ output doc, p.verifyOutput openssl (i.issued p) = .ok output ∧
        p.chainDoc jq (i.accounts p) output = some doc ∧ after = i.completed p output doc := by
  rw [genChain_split, run_append_ok]
  constructor
  · rintro ⟨dir, checked, completed⟩
    obtain ⟨taken, output, verified, rfl⟩ := verifiedCommands_ok.mp checked
    obtain ⟨dir, written, completed⟩ := run_cons_ok.mp completed
    obtain ⟨a, again, doc, accounts, same, accepted, rfl⟩ := writeChainJson_ok.mp written
    obtain rfl : output = again := Except.ok.inj (verified.symm.trans same)
    obtain rfl : i.accounts p = a := Option.some.inj ((accounts_issued _).symm.trans accounts)
    cases completed
    exact ⟨taken, output, doc, verified, accepted, rfl⟩
  · rintro ⟨taken, output, doc, verified, accepted, rfl⟩
    refine ⟨_, verifiedCommands_ok.mpr ⟨taken, output, verified, rfl⟩, ?_⟩
    exact run_cons_ok.mpr
      ⟨_, writeChainJson_ok.mpr ⟨_, output, doc, accounts_issued _, verified, accepted, rfl⟩, rfl⟩

theorem genChain_refused {output : Text}
    (taken : openssl.newkey p.rootAlg = true ∧ (p.deep → openssl.newkey p.intAlg = true) ∧
      openssl.newkey p.leafAlg = true)
    (verified : p.verifyOutput openssl (i.issued p) = .ok output)
    (refused : p.chainDoc jq (i.accounts p) output = none) :
    run (p.genChain jq openssl i) before =
      .error { i.verified p output with chainJson := some .empty } := by
  have checked : run (p.issueCommands openssl i ++ [p.verify openssl, p.recordVerify openssl]) before =
      .ok (i.verified p output) := verifiedCommands_ok.mpr ⟨taken, output, verified, rfl⟩
  have accounts : p.accounts (i.verified p output) = some (i.accounts p) := accounts_issued _
  have same : p.verifyOutput openssl (i.verified p output) = .ok output := verified
  have written : p.writeChainJson jq openssl (i.verified p output) =
      .error { i.verified p output with chainJson := some .empty } := by
    unfold Profile.writeChainJson
    rw [accounts, same]
    simp only [refused]
  rw [genChain_split, run_append, checked]
  change run _ (i.verified p output) = _
  rw [run_cons, written]
  rfl

end PqcLab.Pki
