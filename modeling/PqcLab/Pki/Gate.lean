import PqcLab.Pki.Faithful

/-! The gate of `runner/run_scenario.sh`: a `chain.json` left by earlier invocations of `gen_chain.sh`,
each of which may have stopped anywhere. -/

namespace PqcLab.Pki

open Digits Script

/-- `[[ -f "$PROFILE_OUT_DIR/chain.json" ]]` -/
def gateAccepts (dir : OutDir) : Bool := dir.chainJson.isSome

/-- One invocation of a history, with the faults of the file system that it meets. -/
structure Attempt where
  profile : Profile
  invocation : Invocation
  /-- `rm -rf` fails on `chain.json`, whatever else it removes. -/
  keepsChainJson : Bool
  /-- `jq` fails while it prints `chain.json`. -/
  cutsChainJson : Bool

structure OutDir.Remains (after before : OutDir) : Prop where
  rootCrt : after.rootCrt = before.rootCrt ∨ after.rootCrt = none
  intermediateCrt : after.intermediateCrt = before.intermediateCrt ∨ after.intermediateCrt = none
  serverCrt : after.serverCrt = before.serverCrt ∨ after.serverCrt = none
  servedChain : after.servedChain = before.servedChain ∨ after.servedChain = none
  verifyTxt : after.verifyTxt = before.verifyTxt ∨ after.verifyTxt = none
  chainJson : after.chainJson = before.chainJson ∨ after.chainJson = none
  metaJson : after.metaJson = before.metaJson ∨ after.metaJson = none

namespace Attempt

variable (jq : Jq) (openssl : Openssl) (e : Attempt)

def resetStep : Step OutDir where
  command := Profile.reset
  spoils before after := after.Remains before ∧ (e.keepsChainJson = true ∨ after.chainJson = none)

def rootStep : Step OutDir :=
  .writing (e.profile.issueRoot openssl e.invocation) fun crt dir => { dir with rootCrt := crt }

def intermediateStep : Step OutDir :=
  .writing (e.profile.issueIntermediate openssl e.invocation) fun crt dir =>
    { dir with intermediateCrt := crt }

def leafStep : Step OutDir :=
  .writing (e.profile.issueLeaf openssl e.invocation) fun crt dir => { dir with serverCrt := crt }

def servedChainStep : Step OutDir :=
  .writing e.profile.writeServedChain fun chain dir => { dir with servedChain := chain }

def verifyStep : Step OutDir :=
  .writing (e.profile.verify openssl) fun output dir => { dir with verifyTxt := output }

def recordVerifyStep : Step OutDir :=
  .writing (e.profile.recordVerify openssl) fun output dir => { dir with verifyTxt := output }

def chainJsonStep : Step OutDir where
  command := e.profile.writeChainJson jq openssl
  spoils before after := e.cutsChainJson = true ∧
    ∃ file ∈ [JsonFile.empty, .broken], after = { before with chainJson := some file }

def metaJsonStep : Step OutDir :=
  .writing (e.profile.writeMetaJson e.invocation) fun file dir => { dir with metaJson := file }

def issueSteps : List (Step OutDir) :=
  [e.rootStep openssl] ++ (if e.profile.deep then [e.intermediateStep openssl] else []) ++
    [e.leafStep openssl, e.servedChainStep, e.verifyStep openssl, e.recordVerifyStep openssl]

def steps : List (Step OutDir) :=
  (e.resetStep :: e.issueSteps openssl) ++ [e.chainJsonStep jq openssl, e.metaJsonStep]

/-- Undisturbed, the invocation would come as far as `chain.json`. -/
def Verifies : Prop :=
  (openssl.newkey e.profile.rootAlg = true ∧ (e.profile.deep → openssl.newkey e.profile.intAlg = true) ∧
    openssl.newkey e.profile.leafAlg = true) ∧
  ∃ output, e.profile.verifyOutput openssl (e.invocation.issued e.profile) = .ok output

structure Sound : Prop where
  removes : e.keepsChainJson = false
  prints : e.Verifies openssl → e.cutsChainJson = false
  depth : e.Verifies openssl → jq.argjson e.profile.depth ≠ none
  intermediate : e.Verifies openssl → (e.profile.intAlg = [] ↔ ¬ e.profile.deep)

end Attempt

inductive Reached (jq : Jq) (openssl : Openssl) (profileId : Text) : List Attempt → OutDir → Prop
  | start : Reached jq openssl profileId [] {}
  | invoke {history : List Attempt} {before after : OutDir} {e : Attempt} :
      Reached jq openssl profileId history before → e.profile.profileId = profileId →
      Stops (e.steps jq openssl) before after → Reached jq openssl profileId (e :: history) after

structure Describes (doc : Json) (dir : OutDir) : Prop where
  root : ∃ crt, dir.rootCrt = some crt ∧
    doc.blockItem "root".toList "der_bytes".toList = .ok (.num crt.derBytes)
  intermediate : IntermediateDescribed doc dir
  leaf : ∃ crt, dir.serverCrt = some crt ∧
    doc.blockItem "leaf".toList "der_bytes".toList = .ok (.num crt.derBytes)

structure Trusted (jq : Jq) (openssl : Openssl) (e : Attempt) (dir : OutDir) (doc : Json) (output : Text) :
    Prop where
  file : dir.chainJson = some (.document doc)
  written : e.profile.chainDoc jq (e.invocation.accounts e.profile) output = some doc
  describes : Describes doc dir
  root : dir.rootCrt = some e.invocation.root
  intermediate : dir.intermediateCrt = if e.profile.deep then some e.invocation.intermediate else none
  leaf : dir.serverCrt = some (e.invocation.leaf e.profile)
  servedChain : dir.servedChain = some (e.invocation.servedChain e.profile)
  verified : e.profile.verifyOutput openssl dir = .ok output

variable {jq : Jq} {openssl : Openssl} {profileId : Text} {history : List Attempt} {e : Attempt}
  {before after dir : OutDir} {doc : Json} {output : Text}

theorem issueSteps_commands :
    (e.resetStep :: e.issueSteps openssl).map Step.command =
      e.profile.issueCommands openssl e.invocation ++
        [e.profile.verify openssl, e.profile.recordVerify openssl] := by
  unfold Attempt.issueSteps Profile.issueCommands
  by_cases deep : e.profile.deep
  · simp only [if_pos deep]
    rfl
  · simp only [if_neg deep]
    rfl

theorem steps_commands :
    (e.steps jq openssl).map Step.command = e.profile.genChain jq openssl e.invocation := by
  rw [genChain_split, Attempt.steps, List.map_append, issueSteps_commands]
  rfl

section
variable {p : Profile} {i : Invocation}

theorem issueRoot_writes (dir : OutDir) :
    ∃ crt, outcome (p.issueRoot openssl i dir) = { dir with rootCrt := crt } := by
  unfold Profile.issueRoot
  split_ifs
  · exact ⟨_, rfl⟩
  · exact ⟨dir.rootCrt, rfl⟩

theorem issueIntermediate_writes (dir : OutDir) :
    ∃ crt, outcome (p.issueIntermediate openssl i dir) = { dir with intermediateCrt := crt } := by
  unfold Profile.issueIntermediate
  split
  · exact ⟨_, rfl⟩
  · exact ⟨dir.intermediateCrt, rfl⟩

theorem issueLeaf_writes (dir : OutDir) :
    ∃ crt, outcome (p.issueLeaf openssl i dir) = { dir with serverCrt := crt } := by
  unfold Profile.issueLeaf
  split
  · exact ⟨_, rfl⟩
  · exact ⟨dir.serverCrt, rfl⟩

theorem writeServedChain_writes (dir : OutDir) :
    ∃ chain, outcome (p.writeServedChain dir) = { dir with servedChain := chain } := by
  unfold Profile.writeServedChain
  split_ifs
  · split
    · exact ⟨_, rfl⟩
    · exact ⟨_, rfl⟩
  · exact ⟨_, rfl⟩

theorem verify_writes (dir : OutDir) :
    ∃ output, outcome (p.verify openssl dir) = { dir with verifyTxt := output } := by
  unfold Profile.verify
  split
  · exact ⟨dir.verifyTxt, rfl⟩
  · exact ⟨_, rfl⟩

theorem recordVerify_writes (dir : OutDir) :
    ∃ output, outcome (p.recordVerify openssl dir) = { dir with verifyTxt := output } := by
  unfold Profile.recordVerify
  split
  · exact ⟨_, rfl⟩
  · exact ⟨_, rfl⟩

end

theorem issueSteps_keep {step : Step OutDir} (member : step ∈ e.issueSteps openssl) :
    step.Keeps fun dir => dir.chainJson = none := by
  simp only [Attempt.issueSteps, List.mem_append, List.mem_cons, List.not_mem_nil, or_false] at member
  rcases member with (rfl | between) | rfl | rfl | rfl | rfl
  · exact Step.writing_keeps issueRoot_writes fun _ _ fresh => fresh
  · by_cases deep : e.profile.deep
    · rw [if_pos deep, List.mem_singleton] at between
      subst between
      exact Step.writing_keeps issueIntermediate_writes fun _ _ fresh => fresh
    · rw [if_neg deep] at between
      cases between
  · exact Step.writing_keeps issueLeaf_writes fun _ _ fresh => fresh
  · exact Step.writing_keeps writeServedChain_writes fun _ _ fresh => fresh
  · exact Step.writing_keeps verify_writes fun _ _ fresh => fresh
  · exact Step.writing_keeps recordVerify_writes fun _ _ fresh => fresh

/-- `meta.json` is the last file, and nothing that the gate trusts depends on it. -/
theorem metaJsonStep_keeps :
    e.metaJsonStep.Keeps fun dir => Trusted jq openssl e dir doc output := by
  apply Step.writing_keeps (fun dir => ⟨_, rfl⟩)
  intro file dir trusted
  exact ⟨trusted.file, trusted.written,
    ⟨trusted.describes.root, ⟨trusted.describes.intermediate.absent, trusted.describes.intermediate.derBytes⟩,
      trusted.describes.leaf⟩,
    trusted.root, trusted.intermediate, trusted.leaf, trusted.servedChain, trusted.verified⟩

theorem chainDoc_accepted {p : Profile} {a : Accounts} (numerals : ∀ n, jq.argjson (decimal n) ≠ none)
    (depth : jq.argjson p.depth ≠ none) : ∃ doc, p.chainDoc jq a output = some doc := by
  have number n : ∃ doc, jq.argjson (decimal n) = some doc := Option.ne_none_iff_exists'.mp (numerals n)
  obtain ⟨_, depth⟩ := Option.ne_none_iff_exists'.mp depth
  obtain ⟨_, rootDer⟩ := number a.rootDer
  obtain ⟨_, intDer⟩ := number a.intDer
  obtain ⟨_, leafDer⟩ := number a.leafDer
  obtain ⟨_, len⟩ := number a.servedChainLen
  obtain ⟨_, bytes⟩ := number a.servedChainDerBytes
  unfold Profile.chainDoc
  rw [depth, rootDer, intDer, leafDer, len, bytes]
  exact ⟨_, rfl⟩

theorem chainDoc_certificates {p : Profile} {a : Accounts} (written : p.chainDoc jq a output = some doc) :
    doc.blockItem "root".toList "der_bytes".toList = .ok (.num a.rootDer) ∧
      doc.blockItem "leaf".toList "der_bytes".toList = .ok (.num a.leafDer) := by
  simp only [Profile.chainDoc, Option.bind_eq_bind, Option.bind_eq_some_iff] at written
  obtain ⟨_, _, _, rootRead, _, _, _, leafRead, _, _, _, _, same⟩ := written
  injection same with same
  subst same
  rw [Jq.argjson_decimal rootRead, Jq.argjson_decimal leafRead]
  exact ⟨rfl, rfl⟩

theorem written_trusted (named : e.profile.intAlg = [] ↔ ¬ e.profile.deep)
    (verified : e.profile.verifyOutput openssl (e.invocation.issued e.profile) = .ok output)
    (written : e.profile.chainDoc jq (e.invocation.accounts e.profile) output = some doc) :
    Trusted jq openssl e
      { e.invocation.verified e.profile output with chainJson := some (.document doc) } doc output := by
  obtain ⟨root, leaf⟩ := chainDoc_certificates written
  have sizes : (e.invocation.accounts e.profile).rootDer = e.invocation.rootDer ∧
      (e.invocation.accounts e.profile).leafDer = e.invocation.leafDer := by
    unfold Invocation.accounts
    split_ifs
    · exact ⟨rfl, rfl⟩
    · exact ⟨rfl, rfl⟩
  rw [sizes.1] at root
  rw [sizes.2] at leaf
  have described : IntermediateDescribed doc
      { e.invocation.verified e.profile output with chainJson := some (.document doc) } :=
    (intermediateDescribed_iff rfl written).mpr named
  exact ⟨rfl, written, ⟨⟨_, rfl, root⟩, described, ⟨_, rfl, leaf⟩⟩, rfl, rfl, rfl, rfl, verified⟩

/-- An invocation that stops before `chain.json` has removed the old one, unless it has done nothing. -/
theorem stops_early (removes : e.keepsChainJson = false)
    (stopped : Stops (e.resetStep :: e.issueSteps openssl) before after) :
    after = before ∨ after.chainJson = none := by
  cases stopped with
  | here => exact .inl rfl
  | spoiled left =>
    rcases left.2 with keeps | removed
    · rw [removes] at keeps
      cases keeps
    · exact .inr removed
  | failed left => cases left
  | next left stopped =>
    cases left
    exact .inr (stopped.keeps (fun step member => issueSteps_keep member) rfl)

/-- One that comes to `chain.json` writes its own document, if it writes anything. -/
theorem stops_late (numerals : ∀ n, jq.argjson (decimal n) ≠ none) (sound : e.Sound jq openssl)
    (taken : openssl.newkey e.profile.rootAlg = true ∧
      (e.profile.deep → openssl.newkey e.profile.intAlg = true) ∧ openssl.newkey e.profile.leafAlg = true)
    (verified : e.profile.verifyOutput openssl (e.invocation.issued e.profile) = .ok output)
    (stopped : Stops [e.chainJsonStep jq openssl, e.metaJsonStep]
      (e.invocation.verified e.profile output) after) :
    after.chainJson = none ∨ ∃ doc, Trusted jq openssl e after doc output := by
  have verifies : e.Verifies openssl := ⟨taken, output, verified⟩
  obtain ⟨doc, accepted⟩ : ∃ doc,
      e.profile.chainDoc jq (e.invocation.accounts e.profile) output = some doc :=
    chainDoc_accepted numerals (sound.depth verifies)
  have written : (e.chainJsonStep jq openssl).command (e.invocation.verified e.profile output) =
      .ok { e.invocation.verified e.profile output with chainJson := some (.document doc) } :=
    writeChainJson_ok.mpr ⟨_, output, doc, accounts_issued _, verified, accepted, rfl⟩
  cases stopped with
  | here => exact .inl rfl
  | spoiled left =>
    have cut := left.1
    rw [sound.prints verifies] at cut
    cases cut
  | failed left =>
    rw [written] at left
    cases left
  | next left stopped =>
    rw [written] at left
    cases left
    have only : ∀ step ∈ [e.metaJsonStep], step.Keeps fun dir => Trusted jq openssl e dir doc output := by
      intro step member
      rw [List.mem_singleton.mp member]
      exact metaJsonStep_keeps
    exact .inr ⟨doc, stopped.keeps only (written_trusted (sound.intermediate verifies) verified accepted)⟩

theorem attempt_trusted (numerals : ∀ n, jq.argjson (decimal n) ≠ none) (sound : e.Sound jq openssl)
    (stopped : Stops (e.steps jq openssl) before after) :
    after = before ∨ after.chainJson = none ∨ ∃ doc output, Trusted jq openssl e after doc output := by
  rcases stopped.of_append with early | ⟨middle, completed, late⟩
  · rcases stops_early sound.removes early with same | fresh
    · exact .inl same
    · exact .inr (.inl fresh)
  · rw [issueSteps_commands] at completed
    obtain ⟨taken, output, verified, rfl⟩ := verifiedCommands_ok.mp completed
    rcases stops_late numerals sound taken verified late with fresh | ⟨doc, trusted⟩
    · exact .inr (.inl fresh)
    · exact .inr (.inr ⟨doc, output, trusted⟩)

/-- In a history of sound invocations, wherever each of them stopped, the gate accepts only a whole
`chain.json` with the certificates of its own invocation, which `openssl` has verified. -/
theorem accepted_chain_trusted (numerals : ∀ n, jq.argjson (decimal n) ≠ none)
    (reached : Reached jq openssl profileId history dir) (sound : ∀ e ∈ history, e.Sound jq openssl)
    (accepted : gateAccepts dir = true) :
    ∃ e ∈ history, ∃ doc output, Trusted jq openssl e dir doc output := by
  induction reached with
  | start => cases accepted
  | @invoke history before after e reached same stopped ih =>
    rcases attempt_trusted numerals (sound e List.mem_cons_self) stopped with
      rfl | fresh | ⟨doc, output, trusted⟩
    · obtain ⟨earlier, member, trusted⟩ :=
        ih (fun e member => sound e (List.mem_cons_of_mem _ member)) accepted
      exact ⟨earlier, List.mem_cons_of_mem _ member, trusted⟩
    · rw [gateAccepts, fresh] at accepted
      cases accepted
    · exact ⟨e, List.mem_cons_self, doc, output, trusted⟩

def undisturbed (p : Profile) : Attempt where
  profile := p
  invocation := march2026
  keepsChainJson := false
  cutsChainJson := false

def inApril (p : Profile) : Attempt :=
  { undisturbed p with
    invocation :=
      { march2026 with
        rootKey := 3
        intKey := 4
        leafKey := 5
        fresh := by decide
        generatedAt := "2026-04-02T10:00:00Z".toList } }

/-- Three invocations for one profile: cut short before the leaf, completed, and stopped at once. -/
def threeAttempts (p : Profile) : List Attempt := [undisturbed p, inApril p, undisturbed p]

theorem accepted_chain_trusted_deep :
    ∃ dir, Reached decimalJq willingOpenssl mlRootMlIntMlLeaf.profileId (threeAttempts mlRootMlIntMlLeaf) dir ∧
      gateAccepts dir = true ∧ ∃ e ∈ threeAttempts mlRootMlIntMlLeaf, ∃ doc output,
        Trusted decimalJq willingOpenssl e dir doc output := by
  let p := mlRootMlIntMlLeaf
  let first := (undisturbed p).steps decimalJq willingOpenssl
  let middle := outcome (run ((first.take 3).map Step.command) {})
  obtain ⟨doc, -, completed⟩ :=
    @willingOpenssl_completes decimalJq p (inApril p).invocation (by decide +kernel) middle
  have stopped : Stops ((inApril p).steps decimalJq willingOpenssl) middle
      ((inApril p).invocation.completed p verifiedOk doc) := by
    apply Stops.of_run_ok
    rw [steps_commands]
    exact completed
  have reached : Reached decimalJq willingOpenssl p.profileId (threeAttempts p)
      ((inApril p).invocation.completed p verifiedOk doc) :=
    .invoke (.invoke (.invoke .start rfl (Stops.of_take first {} 3)) rfl stopped) rfl (.here first _)
  refine ⟨_, reached, rfl, accepted_chain_trusted decimalJq_decimal reached ?_ rfl⟩
  intro e member
  simp only [threeAttempts, List.mem_cons, List.not_mem_nil, or_false] at member
  rcases member with rfl | rfl | rfl
  · exact ⟨rfl, fun _ => rfl, fun _ => by decide +kernel, fun _ => by decide⟩
  · exact ⟨rfl, fun _ => rfl, fun _ => by decide +kernel, fun _ => by decide⟩
  · exact ⟨rfl, fun _ => rfl, fun _ => by decide +kernel, fun _ => by decide⟩

def wordyDepth : Profile := { mlRootMlLeaf with depth := "two".toList }

/-- `jq` refuses the depth when the shell has already opened `chain.json`, and the gate accepts the empty
file. -/
theorem empty_chain_accepted :
    ∃ dir, Reached decimalJq willingOpenssl wordyDepth.profileId [undisturbed wordyDepth] dir ∧
      gateAccepts dir = true ∧ dir.chainJson = some .empty ∧
      ¬ ∃ e ∈ [undisturbed wordyDepth], ∃ doc output, Trusted decimalJq willingOpenssl e dir doc output := by
  have refused : wordyDepth.chainDoc decimalJq (march2026.accounts wordyDepth) verifiedOk = none := by
    have depth : decimalJq.argjson wordyDepth.depth = none := by decide +kernel
    unfold Profile.chainDoc
    rw [depth]
    rfl
  have stopped : Stops ((undisturbed wordyDepth).steps decimalJq willingOpenssl) {}
      { march2026.verified wordyDepth verifiedOk with chainJson := some .empty } := by
    apply Stops.of_run_error
    rw [steps_commands]
    exact genChain_refused ⟨rfl, fun _ => rfl, rfl⟩ rfl refused
  refine ⟨_, Reached.start.invoke rfl stopped, rfl, rfl, ?_⟩
  rintro ⟨e, -, doc, output, trusted⟩
  cases trusted.file

end PqcLab.Pki
