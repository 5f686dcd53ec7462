import PqcLab.Pki.ServedChain

/-! What `chain.json` says of the certificates that its invocation issued. -/

namespace PqcLab.Pki

open Digits Script

/-- The path from the leaf to the root, through the certificates in `certs/`. -/
def OutDir.path (dir : OutDir) (leaf : Certificate) : List Certificate :=
  let store := dir.rootCrt.toList ++ dir.intermediateCrt.toList
  leaf :: issuers store store.length leaf

structure IntermediateDescribed (doc : Json) (dir : OutDir) : Prop where
  absent : doc.getItem "intermediate".toList = .ok .null ↔ dir.intermediateCrt = none
  derBytes : ∀ crt, dir.intermediateCrt = some crt →
    doc.blockItem "intermediate".toList "der_bytes".toList = .ok (.num crt.derBytes)

structure Faithful (dir : OutDir) (leaf : Certificate) (served : List Certificate) (doc : Json) : Prop where
  leafIssued : dir.serverCrt = some leaf
  chainServed : dir.servedChain = some served
  depth : doc.getItem "depth".toList = .ok (.num (dir.path leaf).length)
  intermediate : IntermediateDescribed doc dir
  servedLen : doc.blockItem "served_chain".toList "len".toList = .ok (.num (leaf :: served).length)
  servedDer : doc.blockItem "served_chain".toList "der_bytes".toList =
    .ok (.num ((leaf :: served).map fun crt => (crt.derBytes : ℕ)).sum)

variable {jq : Jq} {openssl : Openssl} {p : Profile} {i : Invocation} {before after dir : OutDir}
  {a : Accounts} {output : Text} {doc : Json}

theorem chainDoc_depth (written : p.chainDoc jq a output = some doc) :
    ∃ depth, jq.argjson p.depth = some depth ∧ doc.getItem "depth".toList = .ok depth := by
  simp only [Profile.chainDoc, Option.bind_eq_bind, Option.bind_eq_some_iff] at written
  obtain ⟨depth, accepted, _, _, _, _, _, _, _, _, _, _, same⟩ := written
  injection same with same
  subst same
  exact ⟨depth, accepted, rfl⟩

/-- The template asks for the algorithm, not for the depth. -/
theorem chainDoc_intermediate (written : p.chainDoc jq a output = some doc) :
    (doc.getItem "intermediate".toList = .ok .null ↔ p.intAlg = []) ∧
      (p.intAlg ≠ [] → doc.blockItem "intermediate".toList "der_bytes".toList = .ok (.num a.intDer)) := by
  simp only [Profile.chainDoc, Option.bind_eq_bind, Option.bind_eq_some_iff] at written
  obtain ⟨_, _, _, _, _, intRead, _, _, _, _, _, _, same⟩ := written
  injection same with same
  subst same
  rw [Jq.argjson_decimal intRead]
  by_cases named : p.intAlg = []
  · rw [if_pos named]
    exact ⟨⟨fun _ => named, fun _ => rfl⟩, fun other => absurd named other⟩
  · rw [if_neg named]
    refine ⟨⟨fun absent => ?_, fun other => absurd other named⟩, fun _ => rfl⟩
    cases absent

theorem intermediateDescribed_iff
    (issued : dir.intermediateCrt = if p.deep then some i.intermediate else none)
    (written : p.chainDoc jq (i.accounts p) output = some doc) :
    IntermediateDescribed doc dir ↔ (p.intAlg = [] ↔ ¬ p.deep) := by
  obtain ⟨absent, present⟩ := chainDoc_intermediate written
  have none_iff : dir.intermediateCrt = none ↔ ¬ p.deep := by
    rw [issued]
    by_cases deep : p.deep
    · simp [deep]
    · simp [deep]
  constructor
  · intro described
    exact absent.symm.trans (described.absent.trans none_iff)
  · intro named
    refine ⟨absent.trans (named.trans none_iff.symm), fun crt same => ?_⟩
    by_cases deep : p.deep
    · have other : p.intAlg ≠ [] := fun unnamed => named.mp unnamed deep
      rw [issued, if_pos deep] at same
      obtain rfl : i.intermediate = crt := Option.some.inj same
      rw [present other]
      simp [Invocation.accounts, Invocation.intermediate, deep]
    · rw [none_iff.mpr deep] at same
      cases same

theorem completed_path (output : Text) (doc : Json) :
    ((i.completed p output doc).path (i.leaf p)).length = if p.deep then 3 else 2 := by
  have fresh := i.fresh
  simp only [List.nodup_cons, List.mem_cons, List.not_mem_nil, or_false, not_or] at fresh
  obtain ⟨⟨rootInt, rootLeaf⟩, intLeaf, -⟩ := fresh
  by_cases deep : p.deep
  · simp [OutDir.path, issuers, Invocation.completed, Invocation.issued, Invocation.leaf, Invocation.root,
      Invocation.intermediate, deep, rootInt, intLeaf]
  · simp [OutDir.path, issuers, Invocation.completed, Invocation.issued, Invocation.leaf, Invocation.root,
      deep, rootLeaf]

theorem accounts_served (i : Invocation) (p : Profile) :
    (i.accounts p).servedChainLen = (i.leaf p :: i.servedChain p).length ∧
      (i.accounts p).servedChainDerBytes =
        ((i.leaf p :: i.servedChain p).map fun crt => (crt.derBytes : ℕ)).sum := by
  by_cases deep : p.deep
  · simp [Invocation.accounts, Invocation.servedChain, Invocation.leaf, Invocation.intermediate, deep]
  · simp [Invocation.accounts, Invocation.servedChain, Invocation.leaf, deep]

theorem completed_faithful_iff (written : p.chainDoc jq (i.accounts p) output = some doc) :
    (∃ leaf served, Faithful (i.completed p output doc) leaf served doc) ↔
      jq.argjson p.depth = some (.num (if p.deep then 3 else 2 : ℕ)) ∧ (p.intAlg = [] ↔ ¬ p.deep) := by
  obtain ⟨depth, accepted, depthItem⟩ := chainDoc_depth written
  obtain ⟨lenItem, derItem⟩ := chainDoc_served written
  have described : IntermediateDescribed doc (i.completed p output doc) ↔ (p.intAlg = [] ↔ ¬ p.deep) :=
    intermediateDescribed_iff rfl written
  have path : ((i.completed p output doc).path (i.leaf p)).length = _ := completed_path output doc
  constructor
  · rintro ⟨leaf, served, faithful⟩
    obtain rfl : i.leaf p = leaf := Option.some.inj faithful.leafIssued
    have said := faithful.depth
    rw [depthItem, path] at said
    refine ⟨?_, described.mp faithful.intermediate⟩
    rw [accepted, Except.ok.inj said]
  · rintro ⟨right, named⟩
    rw [right] at accepted
    cases accepted
    refine ⟨i.leaf p, i.servedChain p, rfl, rfl, ?_, described.mpr named, ?_, ?_⟩
    · rw [path, depthItem]
    · rw [lenItem, (accounts_served i p).1]
    · rw [derItem, (accounts_served i p).2]

/-- A depth of 3 needs an intermediate in the profile. Any other depth issues two certificates, so it has
to be the number 2 and the profile must not have an intermediate. -/
theorem chain_json_faithful_iff (completed : run (p.genChain jq openssl i) before = .ok after) :
    (∃ leaf served doc, after.chainJson = some (.document doc) ∧ Faithful after leaf served doc) ↔
      (p.deep ∧ p.intAlg ≠ []) ∨ (¬ p.deep ∧ jq.argjson p.depth = some (.num 2) ∧ p.intAlg = []) := by
  obtain ⟨-, output, doc, -, written, rfl⟩ := genChain_ok.mp completed
  have only : (∃ leaf served read, (i.completed p output doc).chainJson = some (.document read) ∧
      Faithful (i.completed p output doc) leaf served read) ↔
      ∃ leaf served, Faithful (i.completed p output doc) leaf served doc := by
    constructor
    · rintro ⟨leaf, served, _, file, faithful⟩
      cases file
      exact ⟨leaf, served, faithful⟩
    · rintro ⟨leaf, served, faithful⟩
      exact ⟨leaf, served, doc, rfl, faithful⟩
  rw [only, completed_faithful_iff written]
  by_cases deep : p.deep
  · have three : jq.argjson p.depth = some (.num 3) := by
      obtain ⟨depth, accepted, -⟩ := chainDoc_depth written
      have text : p.depth = decimal 3 := deep
      rw [text] at accepted ⊢
      simpa [Jq.argjson_decimal accepted] using accepted
    simp [deep, three]
  · simp [deep]

theorem chain_json_faithful_deep :
    ∃ after, run (mlRootMlIntMlLeaf.genChain decimalJq willingOpenssl march2026) {} = .ok after ∧
      ∃ leaf served doc, after.chainJson = some (.document doc) ∧ Faithful after leaf served doc := by
  obtain ⟨doc, -, completed⟩ :=
    willingOpenssl_completes decimalJq mlRootMlIntMlLeaf march2026 (by decide +kernel)
  exact ⟨_, completed, (chain_json_faithful_iff completed).mpr (.inl (by decide))⟩

def shallowWithIntermediate : Profile := { mlRootMlIntMlLeaf with depth := ['2'] }

/-- Its `chain.json` describes an intermediate of 0 bytes, and `certs/` has none. -/
theorem intermediate_never_issued :
    ∃ after doc, run (shallowWithIntermediate.genChain decimalJq willingOpenssl march2026) {} = .ok after ∧
      after.chainJson = some (.document doc) ∧ after.intermediateCrt = none ∧
      doc.blockItem "intermediate".toList "der_bytes".toList = .ok (.num 0) ∧
      ¬ ∃ leaf served doc, after.chainJson = some (.document doc) ∧ Faithful after leaf served doc := by
  obtain ⟨doc, written, completed⟩ :=
    willingOpenssl_completes decimalJq shallowWithIntermediate march2026 (by decide +kernel)
  have named : shallowWithIntermediate.intAlg ≠ [] := by decide
  refine ⟨_, doc, completed, rfl, rfl, (chainDoc_intermediate written).2 named, ?_⟩
  rintro ⟨leaf, served, _, file, faithful⟩
  cases file
  exact named ((chainDoc_intermediate written).1.mp (faithful.intermediate.absent.mpr rfl))

end PqcLab.Pki
