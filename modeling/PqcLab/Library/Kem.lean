import Mathlib.Data.Option.Basic

/-! Key encapsulation, from key agreement and in parallel. -/

/-- The random choices are the arguments of the last type; each operation may fail. -/
structure Kem (PK SK CT SS γ : Type) where
  keygen : γ → Option (PK × SK)
  encaps : γ → PK → Option (CT × SS)
  decaps : SK → CT → Option SS

namespace Kem

variable {PK SK CT SS γ PK' SK' CT' SS' γ' : Type}

def Correct (kem : Kem PK SK CT SS γ) : Prop :=
  ∀ c pk sk, kem.keygen c = some (pk, sk) →
    ∀ d ct ss, kem.encaps d pk = some (ct, ss) → kem.decaps sk ct = some ss

def parallel (first : Kem PK SK CT SS γ) (second : Kem PK' SK' CT' SS' γ') :
    Kem (PK × PK') (SK × SK') (CT × CT') (SS × SS') (γ × γ') where
  keygen c := do
    let (pk, sk) ← first.keygen c.1
    let (pk', sk') ← second.keygen c.2
    return ((pk, pk'), (sk, sk'))
  encaps c pk := do
    let (ct, ss) ← first.encaps c.1 pk.1
    let (ct', ss') ← second.encaps c.2 pk.2
    return ((ct, ct'), (ss, ss'))
  decaps sk ct := do
    let ss ← first.decaps sk.1 ct.1
    let ss' ← second.decaps sk.2 ct.2
    return (ss, ss')

section Parallel

variable {first : Kem PK SK CT SS γ} {second : Kem PK' SK' CT' SS' γ'}

theorem parallel_keygen {c : γ × γ'} {pk : PK × PK'} {sk : SK × SK'} :
    (parallel first second).keygen c = some (pk, sk) ↔
      first.keygen c.1 = some (pk.1, sk.1) ∧ second.keygen c.2 = some (pk.2, sk.2) := by
  obtain ⟨pk, pk'⟩ := pk
  obtain ⟨sk, sk'⟩ := sk
  simp only [parallel, Option.bind_eq_bind, Option.bind_eq_some_iff]
  constructor
  · rintro ⟨⟨a, b⟩, one, ⟨c, d⟩, two, same⟩
    cases same
    exact ⟨one, two⟩
  · rintro ⟨one, two⟩
    exact ⟨_, one, _, two, rfl⟩

theorem parallel_encaps {c : γ × γ'} {pk : PK × PK'} {ct : CT × CT'} {ss : SS × SS'} :
    (parallel first second).encaps c pk = some (ct, ss) ↔
      first.encaps c.1 pk.1 = some (ct.1, ss.1) ∧ second.encaps c.2 pk.2 = some (ct.2, ss.2) := by
  obtain ⟨ct, ct'⟩ := ct
  obtain ⟨ss, ss'⟩ := ss
  simp only [parallel, Option.bind_eq_bind, Option.bind_eq_some_iff]
  constructor
  · rintro ⟨⟨a, b⟩, one, ⟨c, d⟩, two, same⟩
    cases same
    exact ⟨one, two⟩
  · rintro ⟨one, two⟩
    exact ⟨_, one, _, two, rfl⟩

theorem parallel_decaps {sk : SK × SK'} {ct : CT × CT'} {ss : SS × SS'} :
    (parallel first second).decaps sk ct = some ss ↔
      first.decaps sk.1 ct.1 = some ss.1 ∧ second.decaps sk.2 ct.2 = some ss.2 := by
  obtain ⟨ss, ss'⟩ := ss
  simp only [parallel, Option.bind_eq_bind, Option.bind_eq_some_iff]
  constructor
  · rintro ⟨a, one, b, two, same⟩
    cases same
    exact ⟨one, two⟩
  · rintro ⟨one, two⟩
    exact ⟨_, one, _, two, rfl⟩

theorem Correct.parallel (one : first.Correct) (two : second.Correct) : (parallel first second).Correct := by
  intro c pk sk generated d ct ss encapsulated
  obtain ⟨key, key'⟩ := parallel_keygen.mp generated
  obtain ⟨made, made'⟩ := parallel_encaps.mp encapsulated
  exact parallel_decaps.mpr ⟨one _ _ _ key _ _ _ made, two _ _ _ key' _ _ _ made'⟩

end Parallel

section KeyAgreement

variable {κ π σ : Type} (generate : γ → Option κ) (publicKey : κ → π) (derive : κ → π → Option σ)

/-- The ciphertext is the public key of a fresh key. -/
def ofKeyAgreement : Kem π κ π σ γ where
  keygen c := (generate c).map fun k => (publicKey k, k)
  encaps c peer := do
    let k ← generate c
    let secret ← derive k peer
    return (publicKey k, secret)
  decaps := derive

variable {generate publicKey derive}

theorem ofKeyAgreement_keygen {c : γ} {pk : π} {sk : κ} :
    (ofKeyAgreement generate publicKey derive).keygen c = some (pk, sk) ↔
      generate c = some sk ∧ publicKey sk = pk := by
  simp only [ofKeyAgreement, Option.map_eq_some_iff, Prod.mk.injEq]
  constructor
  · rintro ⟨k, made, rfl, rfl⟩
    exact ⟨made, rfl⟩
  · rintro ⟨made, rfl⟩
    exact ⟨sk, made, rfl, rfl⟩

theorem ofKeyAgreement_encaps {c : γ} {peer ct : π} {ss : σ} :
    (ofKeyAgreement generate publicKey derive).encaps c peer = some (ct, ss) ↔
      ∃ k, generate c = some k ∧ derive k peer = some ss ∧ publicKey k = ct := by
  simp only [ofKeyAgreement, Option.bind_eq_bind, Option.bind_eq_some_iff]
  constructor
  · rintro ⟨k, made, secret, derived, same⟩
    cases same
    exact ⟨k, made, derived, rfl⟩
  · rintro ⟨k, made, derived, rfl⟩
    exact ⟨k, made, ss, derived, rfl⟩

/-- It is enough that the key pairs that can be generated agree. -/
theorem ofKeyAgreement_correct
    (commutes : ∀ c d k m, generate c = some k → generate d = some m →
      derive k (publicKey m) = derive m (publicKey k)) :
    (ofKeyAgreement generate publicKey derive).Correct := by
  intro c pk sk generated d ct ss encapsulated
  obtain ⟨made, rfl⟩ := ofKeyAgreement_keygen.mp generated
  obtain ⟨k, fresh, derived, rfl⟩ := ofKeyAgreement_encaps.mp encapsulated
  exact (commutes c d sk k made fresh).trans derived

end KeyAgreement

end Kem
