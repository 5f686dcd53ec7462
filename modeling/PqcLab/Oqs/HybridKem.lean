import PqcLab.Library.Kem
import PqcLab.Oqs.Generation

/-! `oqs_hyb_kem.c` and the keyslot functions of `oqs_kem.c`. -/

namespace PqcLab.Oqs

open Buffer

variable {κ γ : Type}

/-- The code an encapsulation returns, both lengths, and what it writes at both of its pointers. -/
structure Encapsulated where
  ret : ℤ
  ctlen : ℕ
  secretlen : ℕ
  ct : Bytes
  secret : Bytes
  deriving DecidableEq

structure Decapsulated where
  ret : ℤ
  secretlen : ℕ
  secret : Bytes
  deriving DecidableEq

section Keyslots

variable (evp : Evp κ γ) (oqs : Liboqs γ) (key : OqsxKey κ)

/-- `oqs_evp_kem_encaps_keyslot`; a query has null pointers. -/
def oqsEvpKemEncapsKeyslot (coin : γ) (query : Bool) (keyslot : ℕ) : Option Encapsulated :=
  let info := key.evpInfo
  let out : Encapsulated :=
    { ret := 1, ctlen := info.lengthPublicKey, secretlen := info.kexLengthSecret, ct := [], secret := [] }
  if query then some out
  else do
    let pubkeyKex ← OqsxKey.load key.pubkey (key.compPubkey keyslot) info.lengthPublicKey
    match evp.setEncodedPublicKey pubkeyKex with
    | none => return { out with ret := -1 }
    | some peerpk => match evp.keygen coin with
      | none => return { out with ret := -1 }
      | some pkey => match evp.derive pkey peerpk with
        | none => return { out with ret := -1 }
        | some secret =>
          let ctkexEncoded := evp.getEncodedPublicKey pkey
          if ctkexEncoded.length = 0 ∨ ctkexEncoded.length ≠ info.lengthPublicKey then
            return { out with ret := -1, secret }
          else return { out with ct := ctkexEncoded, secret }

/-- `oqs_evp_kem_decaps_keyslot`, with the bytes from the pointer `ct` on. -/
def oqsEvpKemDecapsKeyslot (query : Bool) (ct : Bytes) (keyslot : ℕ) : Option Decapsulated :=
  let info := key.evpInfo
  let out : Decapsulated := { ret := 1, secretlen := info.kexLengthSecret, secret := [] }
  if query then some out
  else do
    let privkeyKex ← OqsxKey.load key.privkey (key.compPrivkey keyslot) info.lengthPrivateKey
    let pkey := if info.rawKeySupport then evp.newRawPrivateKey privkeyKex
      else evp.d2iAutoPrivateKey privkeyKex
    match pkey with
    | none => return { out with ret := if info.rawKeySupport then -10 else -2 }
    | some pkey => do
      let ctKex ← Buffer.load ct 0 info.lengthPublicKey
      match evp.setEncodedPublicKey ctKex with
      | none => return { out with ret := -5 }
      | some peerpkey => match evp.derive pkey peerpkey with
        | none => return { out with ret := -9 }
        | some secret => return { out with secret }

def oqsQsKemEncapsKeyslot (coin : γ) (query : Bool) (outlen secretlen keyslot : ℕ) : Option Encapsulated :=
  let alg := key.qsCtx
  let failed : Encapsulated := { ret := -1, ctlen := outlen, secretlen, ct := [], secret := [] }
  let out : Encapsulated :=
    { ret := 1, ctlen := alg.lengthCiphertext, secretlen := alg.lengthSharedSecret, ct := [], secret := [] }
  if key.compPubkey keyslot = none then some failed
  else if query then some out
  else if outlen < alg.lengthCiphertext then some failed
  else if secretlen < alg.lengthSharedSecret then some failed
  else do
    let publicKey ← OqsxKey.load key.pubkey (key.compPubkey keyslot) alg.lengthPublicKey
    match oqs.kemEncaps coin publicKey with
    | none => return { out with ret := 0 }
    | some (ct, secret) => return { out with ct, secret }

def oqsQsKemDecapsKeyslot (query : Bool) (outlen : ℕ) (ct : Bytes) (inlen keyslot : ℕ) :
    Option Decapsulated :=
  let alg := key.qsCtx
  let failed : Decapsulated := { ret := -1, secretlen := outlen, secret := [] }
  let out : Decapsulated := { ret := 1, secretlen := alg.lengthSharedSecret, secret := [] }
  if key.compPrivkey keyslot = none then some failed
  else if query then some out
  else if inlen ≠ alg.lengthCiphertext then some { failed with ret := 0 }
  else if outlen < alg.lengthSharedSecret then some failed
  else do
    let secretKey ← OqsxKey.load key.privkey (key.compPrivkey keyslot) alg.lengthSecretKey
    let ct ← Buffer.load ct 0 alg.lengthCiphertext
    match oqs.kemDecaps secretKey ct with
    | none => return { out with ret := 0 }
    | some secret => return { out with secret }

end Keyslots

structure HybEncapsulated where
  ret : ℤ
  ctlen : ℕ
  secretlen : ℕ
  ct : Option Bytes
  secret : Option Bytes
  deriving DecidableEq

structure HybDecapsulated where
  ret : ℤ
  secretlen : ℕ
  secret : Option Bytes
  deriving DecidableEq

def oqsError : ℤ := -1

section Hybrid

variable (evp : Evp κ γ) (oqs : Liboqs γ) (key : OqsxKey κ)

def classicalSlot : ℕ := if key.reverseShare then 1 else 0

def pqSlot : ℕ := if key.reverseShare then 0 else 1

/-- The second half of `oqs_hyb_kem_encaps`, once both keyslots have told their lengths. -/
def hybEncapsInto (coins : γ × γ) (lens pqLens : Encapsulated) (ct secret : Bytes) :
    Option HybEncapsulated := do
  let ctlen := lens.ctlen + pqLens.ctlen
  let secretlen := lens.secretlen + pqLens.secretlen
  let classical ← oqsEvpKemEncapsKeyslot evp key coins.1 false (classicalSlot key)
  let ct ← Buffer.store ct (if key.reverseShare then pqLens.ctlen else 0) classical.ct
  let secret ← Buffer.store secret (if key.reverseShare then pqLens.secretlen else 0) classical.secret
  if classical.ret ≤ 0 then return { ret := oqsError, ctlen, secretlen, ct := some ct, secret := some secret }
  let pq ← oqsQsKemEncapsKeyslot oqs key coins.2 false pqLens.ctlen pqLens.secretlen (pqSlot key)
  let ct ← Buffer.store ct (if key.reverseShare then 0 else lens.ctlen) pq.ct
  let secret ← Buffer.store secret (if key.reverseShare then 0 else lens.secretlen) pq.secret
  if pq.ret ≤ 0 then return { ret := oqsError, ctlen, secretlen, ct := some ct, secret := some secret }
  return { ret := pq.ret, ctlen, secretlen, ct := some ct, secret := some secret }

/-- `oqs_hyb_kem_encaps`, with the lengths that the caller passed in. -/
def oqsHybKemEncaps (coins : γ × γ) (ct secret : Option Bytes) (ctlen secretlen : ℕ) :
    Option HybEncapsulated := do
  let lens ← oqsEvpKemEncapsKeyslot evp key coins.1 true (classicalSlot key)
  if lens.ret ≤ 0 then return { ret := oqsError, ctlen, secretlen, ct, secret }
  let pqLens ← oqsQsKemEncapsKeyslot oqs key coins.2 true 0 0 (pqSlot key)
  if pqLens.ret ≤ 0 then return { ret := oqsError, ctlen, secretlen, ct, secret }
  match ct, secret with
  | some ct, some secret => hybEncapsInto evp oqs key coins lens pqLens ct secret
  | _, _ =>
    return { ret := 1, ctlen := lens.ctlen + pqLens.ctlen, secretlen := lens.secretlen + pqLens.secretlen,
             ct, secret }

/-- The second half of `oqs_hyb_kem_decaps`, for a ciphertext of the right length. -/
def hybDecapsInto (lens pqLens : Decapsulated) (secret ct : Bytes) : Option HybDecapsulated := do
  let secretlen := lens.secretlen + pqLens.secretlen
  let ctLenClassical := key.evpInfo.lengthPublicKey
  let ctLenPQ := key.qsCtx.lengthCiphertext
  let classical ← oqsEvpKemDecapsKeyslot evp key false (ct.drop (if key.reverseShare then ctLenPQ else 0))
    (classicalSlot key)
  let secret ← Buffer.store secret (if key.reverseShare then pqLens.secretlen else 0) classical.secret
  if classical.ret ≤ 0 then return { ret := oqsError, secretlen, secret := some secret }
  let pq ← oqsQsKemDecapsKeyslot oqs key false pqLens.secretlen
    (ct.drop (if key.reverseShare then 0 else ctLenClassical)) ctLenPQ (pqSlot key)
  let secret ← Buffer.store secret (if key.reverseShare then 0 else lens.secretlen) pq.secret
  if pq.ret ≤ 0 then return { ret := oqsError, secretlen, secret := some secret }
  return { ret := pq.ret, secretlen, secret := some secret }

def oqsHybKemDecaps (secret : Option Bytes) (secretlen : ℕ) (ct : Bytes) : Option HybDecapsulated := do
  let lens ← oqsEvpKemDecapsKeyslot evp key true [] (classicalSlot key)
  if lens.ret ≤ 0 then return { ret := oqsError, secretlen, secret }
  let pqLens ← oqsQsKemDecapsKeyslot oqs key true 0 [] 0 (pqSlot key)
  if pqLens.ret ≤ 0 then return { ret := oqsError, secretlen, secret }
  match secret with
  | none => return { ret := 1, secretlen := lens.secretlen + pqLens.secretlen, secret }
  | some secret =>
    if key.evpInfo.lengthPublicKey + key.qsCtx.lengthCiphertext ≠ ct.length then
      return { ret := oqsError, secretlen := lens.secretlen + pqLens.secretlen, secret := some secret }
    else hybDecapsInto evp oqs key lens pqLens secret ct

end Hybrid

/-- The classical algorithm: the ciphertext is an encoded public key. -/
def classicalKem (evp : Evp κ γ) : Kem Bytes κ Bytes Bytes γ :=
  Kem.ofKeyAgreement evp.keygen evp.getEncodedPublicKey fun k peer =>
    (evp.setEncodedPublicKey peer).bind (evp.derive k)

def pqKem (oqs : Liboqs γ) : Kem Bytes Bytes Bytes Bytes γ where
  keygen := oqs.keypair
  encaps := oqs.kemEncaps
  decaps := oqs.kemDecaps

def hybridKem (evp : Evp κ γ) (oqs : Liboqs γ) :
    Kem (Bytes × Bytes) (κ × Bytes) (Bytes × Bytes) (Bytes × Bytes) (γ × γ) :=
  Kem.parallel (classicalKem evp) (pqKem oqs)

/-- Both components in one piece, the classical one first unless the share is reversed. -/
def join (reversed : Bool) (parts : Bytes × Bytes) : Bytes :=
  if reversed then parts.2 ++ parts.1 else parts.1 ++ parts.2

theorem join_length (reversed : Bool) (parts : Bytes × Bytes) :
    (join reversed parts).length = parts.1.length + parts.2.length := by
  cases reversed
  · exact List.length_append
  · exact List.length_append.trans (Nat.add_comm _ _)

def writeBoth (buf : Bytes) (reversed : Bool) (parts : Bytes × Bytes) : Bytes :=
  write (write buf (if reversed then parts.2.length else 0) parts.1)
    (if reversed then 0 else parts.1.length) parts.2

section Joined

variable {buf : Bytes} {parts : Bytes × Bytes} {reversed : Bool}
  (room : parts.1.length + parts.2.length ≤ buf.length)

include room

theorem read_writeBoth :
    read (writeBoth buf reversed parts) 0 (parts.1.length + parts.2.length) = join reversed parts := by
  cases reversed
  · have first : (write buf 0 parts.1).length = buf.length := write_length (by omega)
    simp only [writeBoth, join, Bool.false_eq_true, if_false]
    rw [read_add, Nat.zero_add, read_write (by omega), read_write_before (by omega) (by omega),
      read_write (Nat.zero_le _)]
  · have second : (write buf parts.2.length parts.1).length = buf.length := write_length (by omega)
    simp only [writeBoth, join, if_true]
    rw [Nat.add_comm, read_add, read_write (Nat.zero_le _), read_write_after (by omega) (Nat.zero_le _),
      Nat.zero_add, read_write (by omega)]

end Joined

theorem read_stored_both {buf mid both : Bytes} {reversed : Bool} (parts : Bytes × Bytes) {m n : ℕ}
    (first : parts.1.length = m) (second : parts.2.length = n)
    (stored : store buf (if reversed then n else 0) parts.1 = some mid)
    (storedBoth : store mid (if reversed then 0 else m) parts.2 = some both) :
    read both 0 (m + n) = join reversed parts := by
  have same := store_length stored
  obtain ⟨roomFirst, rfl⟩ := store_eq_some.mp stored
  obtain ⟨roomSecond, rfl⟩ := store_eq_some.mp storedBoth
  subst first second
  apply read_writeBoth
  cases reversed
  · rw [same] at roomSecond
    exact roomSecond
  · rw [Nat.add_comm]
    exact roomFirst

theorem read_join_classical (reversed : Bool) (parts : Bytes × Bytes) :
    read (join reversed parts) (if reversed then parts.2.length else 0) parts.1.length = parts.1 := by
  cases reversed
  · exact (read_append_left (Nat.zero_add _).le).trans (read_self rfl)
  · exact (read_append_right (s := 0) rfl).trans (read_self rfl)

theorem read_join_pq (reversed : Bool) (parts : Bytes × Bytes) :
    read (join reversed parts) (if reversed then 0 else parts.1.length) parts.2.length = parts.2 := by
  cases reversed
  · exact (read_append_right (s := 0) rfl).trans (read_self rfl)
  · exact (read_append_left (Nat.zero_add _).le).trans (read_self rfl)

structure Evp.Agrees (evp : Evp κ γ) (info : EvpInfo) : Prop where
  encodedLength : ∀ {c k}, evp.keygen c = some k →
    (evp.getEncodedPublicKey k).length = info.lengthPublicKey
  sameEncoding : ¬info.rawKeySupport → ∀ {c k}, evp.keygen c = some k →
    evp.i2dPublicKey k = evp.getEncodedPublicKey k
  rawPrivateKey : info.rawKeySupport → ∀ {c k}, evp.keygen c = some k →
    evp.newRawPrivateKey (evp.getRawPrivateKey k) = some k
  /-- DER has its own length, so that what follows it is not read. -/
  derPrivateKey : ¬info.rawKeySupport → ∀ {c k}, evp.keygen c = some k → ∀ rest,
    evp.d2iAutoPrivateKey (evp.i2dPrivateKey k ++ rest) = some k
  secretLength : ∀ {k peer secret}, evp.derive k peer = some secret → secret.length = info.kexLengthSecret
  commutes : ∀ {c d k m}, evp.keygen c = some k → evp.keygen d = some m →
    (evp.setEncodedPublicKey (evp.getEncodedPublicKey m)).bind (evp.derive k) =
      (evp.setEncodedPublicKey (evp.getEncodedPublicKey k)).bind (evp.derive m)

structure Liboqs.Encapsulates (oqs : Liboqs γ) (alg : OqsAlg) : Prop where
  publicLength : ∀ {c pk sk}, oqs.keypair c = some (pk, sk) → pk.length = alg.lengthPublicKey
  secretLength : ∀ {c pk sk}, oqs.keypair c = some (pk, sk) → sk.length = alg.lengthSecretKey
  ciphertextLength : ∀ {d pk ct ss}, oqs.kemEncaps d pk = some (ct, ss) → ct.length = alg.lengthCiphertext
  sharedLength : ∀ {d pk ct ss}, oqs.kemEncaps d pk = some (ct, ss) → ss.length = alg.lengthSharedSecret
  decapsLength : ∀ {sk ct ss}, oqs.kemDecaps sk ct = some ss → ss.length = alg.lengthSharedSecret
  correct : (pqKem oqs).Correct

theorem classicalKem_correct {evp : Evp κ γ} {info : EvpInfo} (agrees : evp.Agrees info) :
    (classicalKem evp).Correct :=
  Kem.ofKeyAgreement_correct fun _ _ _ _ generated generated' => agrees.commutes generated generated'

theorem hybridKem_correct {evp : Evp κ γ} {oqs : Liboqs γ} {info : EvpInfo} {alg : OqsAlg}
    (agrees : evp.Agrees info) (encapsulates : oqs.Encapsulates alg) : (hybridKem evp oqs).Correct :=
  (classicalKem_correct agrees).parallel encapsulates.correct

theorem classicalKem_secret_length {evp : Evp κ γ} {info : EvpInfo} (agrees : evp.Agrees info) {d : γ}
    {pk ct ss : Bytes} (made : (classicalKem evp).encaps d pk = some (ct, ss)) :
    ss.length = info.kexLengthSecret := by
  obtain ⟨k, -, derived, -⟩ := Kem.ofKeyAgreement_encaps.mp made
  obtain ⟨peer, -, derived⟩ := Option.bind_eq_some_iff.mp derived
  exact agrees.secretLength derived

section Encapsulation

variable {evp : Evp κ γ} {oqs : Liboqs γ} {key : OqsxKey κ}

theorem oqsEvpKemEncapsKeyslot_ok {coin : γ} {slot : ℕ} {peer : Bytes} {out : Encapsulated}
    (ran : oqsEvpKemEncapsKeyslot evp key coin false slot = some out) (ok : ¬out.ret ≤ 0)
    (component : OqsxKey.load key.pubkey (key.compPubkey slot) key.evpInfo.lengthPublicKey = some peer) :
    (classicalKem evp).encaps coin peer = some (out.ct, out.secret) ∧
      out.ct.length = key.evpInfo.lengthPublicKey := by
  have failed : ¬¬(-1 : ℤ) ≤ 0 := by decide
  rw [oqsEvpKemEncapsKeyslot, component] at ran
  dsimp only [Bool.false_eq_true, if_false, Option.bind_eq_bind, Option.bind_some] at ran
  rw [if_neg Bool.false_ne_true] at ran
  split at ran
  · cases ran
    exact absurd ok failed
  · rename_i peerpk parsed
    split at ran
    · cases ran
      exact absurd ok failed
    · rename_i pkey generated
      split at ran
      · cases ran
        exact absurd ok failed
      · rename_i secret derived
        split at ran
        · cases ran
          exact absurd ok failed
        · rename_i exact
          cases ran
          refine ⟨Kem.ofKeyAgreement_encaps.mpr ⟨pkey, generated, ?_, rfl⟩, not_not.mp (not_or.mp exact).2⟩
          rw [parsed, Option.bind_some, derived]

theorem oqsQsKemEncapsKeyslot_ok {coin : γ} {outlen secretlen slot : ℕ} {peer : Bytes} {out : Encapsulated}
    (ran : oqsQsKemEncapsKeyslot oqs key coin false outlen secretlen slot = some out) (ok : ¬out.ret ≤ 0)
    (component : OqsxKey.load key.pubkey (key.compPubkey slot) key.qsCtx.lengthPublicKey = some peer) :
    (pqKem oqs).encaps coin peer = some (out.ct, out.secret) ∧ out.ret = 1 := by
  have failed : ¬¬(-1 : ℤ) ≤ 0 := by decide
  rw [oqsQsKemEncapsKeyslot, component] at ran
  dsimp only at ran
  rw [if_neg Bool.false_ne_true] at ran
  split at ran
  · cases ran
    exact absurd ok failed
  · split at ran
    · cases ran
      exact absurd ok failed
    · split at ran
      · cases ran
        exact absurd ok failed
      · dsimp only [Option.bind_eq_bind, Option.bind_some] at ran
        split at ran
        · cases ran
          exact absurd ok (show ¬¬(0 : ℤ) ≤ 0 by decide)
        · rename_i ct secret made
          cases ran
          exact ⟨made, rfl⟩

theorem oqsQsKemEncapsKeyslot_query {coin : γ} {outlen secretlen slot : ℕ}
    (pointer : key.compPubkey slot ≠ none) :
    oqsQsKemEncapsKeyslot oqs key coin true outlen secretlen slot =
      some { ret := 1, ctlen := key.qsCtx.lengthCiphertext, secretlen := key.qsCtx.lengthSharedSecret,
             ct := [], secret := [] } := by
  rw [oqsQsKemEncapsKeyslot]
  dsimp only
  rw [if_neg pointer, if_pos rfl]

theorem oqsHybKemEncaps_ok {coins : γ × γ} {pk : Bytes × Bytes} {ct secret : Bytes} {ctlen secretlen : ℕ}
    {out : HybEncapsulated} (agrees : evp.Agrees key.evpInfo) (encapsulates : oqs.Encapsulates key.qsCtx)
    (ran : oqsHybKemEncaps evp oqs key coins (some ct) (some secret) ctlen secretlen = some out)
    (ok : out.ret = 1)
    (classicalPart : OqsxKey.load key.pubkey (key.compPubkey (classicalSlot key)) key.evpInfo.lengthPublicKey =
      some pk.1)
    (pqPart : OqsxKey.load key.pubkey (key.compPubkey (pqSlot key)) key.qsCtx.lengthPublicKey = some pk.2) :
    ∃ cts secrets, (hybridKem evp oqs).encaps coins pk = some (cts, secrets) ∧
      cts.1.length = key.evpInfo.lengthPublicKey ∧ cts.2.length = key.qsCtx.lengthCiphertext ∧
      out.ctlen = cts.1.length + cts.2.length ∧ out.secretlen = secrets.1.length + secrets.2.length ∧
      (out.ct.map fun ct => read ct 0 out.ctlen) = some (join key.reverseShare cts) ∧
      (out.secret.map fun secret => read secret 0 out.secretlen) = some (join key.reverseShare secrets) := by
  have notFailed : ¬oqsError = 1 := by decide
  have pointer : key.compPubkey (pqSlot key) ≠ none := by
    intro null
    rw [null] at pqPart
    obtain ⟨buf, -, read⟩ := Option.bind_eq_some_iff.mp pqPart
    cases read
  rw [oqsHybKemEncaps] at ran
  obtain ⟨classical, queried, encapsulated⟩ := Option.bind_eq_some_iff.mp ran
  cases queried
  rw [if_neg (show ¬(1 : ℤ) ≤ 0 by decide)] at encapsulated
  obtain ⟨pq, queried, encapsulated⟩ := Option.bind_eq_some_iff.mp encapsulated
  rw [oqsQsKemEncapsKeyslot_query pointer] at queried
  cases queried
  rw [if_neg (show ¬(1 : ℤ) ≤ 0 by decide)] at encapsulated
  obtain ⟨classical, ranClassical, encapsulated⟩ := Option.bind_eq_some_iff.mp encapsulated
  obtain ⟨ctClassical, storedCt, encapsulated⟩ := Option.bind_eq_some_iff.mp encapsulated
  obtain ⟨secretClassical, storedSecret, encapsulated⟩ := Option.bind_eq_some_iff.mp encapsulated
  split at encapsulated
  · cases encapsulated
    exact absurd ok notFailed
  · rename_i okClassical
    obtain ⟨pq, ranPQ, encapsulated⟩ := Option.bind_eq_some_iff.mp encapsulated
    obtain ⟨ctBoth, storedCtPQ, encapsulated⟩ := Option.bind_eq_some_iff.mp encapsulated
    obtain ⟨secretBoth, storedSecretPQ, encapsulated⟩ := Option.bind_eq_some_iff.mp encapsulated
    split at encapsulated
    · cases encapsulated
      exact absurd ok notFailed
    · rename_i okPQ
      cases encapsulated
      obtain ⟨madeClassical, ctLength⟩ := oqsEvpKemEncapsKeyslot_ok ranClassical okClassical classicalPart
      obtain ⟨madePQ, -⟩ := oqsQsKemEncapsKeyslot_ok ranPQ okPQ pqPart
      have secretLength := classicalKem_secret_length agrees madeClassical
      have ctLengthPQ := encapsulates.ciphertextLength madePQ
      have secretLengthPQ := encapsulates.sharedLength madePQ
      refine ⟨(classical.ct, pq.ct), (classical.secret, pq.secret),
        Kem.parallel_encaps.mpr ⟨madeClassical, madePQ⟩, ctLength, ctLengthPQ, ?_, ?_, ?_, ?_⟩
      · rw [ctLength, ctLengthPQ]
      · rw [secretLength, secretLengthPQ]
      · exact congrArg some (read_stored_both (classical.ct, pq.ct) ctLength ctLengthPQ storedCt storedCtPQ)
      · exact congrArg some (read_stored_both (classical.secret, pq.secret) secretLength secretLengthPQ
          storedSecret storedSecretPQ)

end Encapsulation

section Decapsulation

variable {evp : Evp κ γ} {oqs : Liboqs γ} {key : OqsxKey κ}

theorem oqsEvpKemDecapsKeyslot_eq {slot : ℕ} {ct stored peer secret : Bytes} {k : κ}
    (component : OqsxKey.load key.privkey (key.compPrivkey slot) key.evpInfo.lengthPrivateKey = some stored)
    (parsed : (if key.evpInfo.rawKeySupport then evp.newRawPrivateKey stored
      else evp.d2iAutoPrivateKey stored) = some k)
    (arrived : Buffer.load ct 0 key.evpInfo.lengthPublicKey = some peer)
    (agreed : (classicalKem evp).decaps k peer = some secret) :
    oqsEvpKemDecapsKeyslot evp key false ct slot =
      some { ret := 1, secretlen := key.evpInfo.kexLengthSecret, secret } := by
  obtain ⟨peerpkey, imported, derived⟩ := Option.bind_eq_some_iff.mp agreed
  rw [oqsEvpKemDecapsKeyslot, component]
  dsimp only [Option.bind_eq_bind, Option.bind_some]
  rw [if_neg Bool.false_ne_true, parsed, arrived]
  dsimp only [Option.bind_eq_bind, Option.bind_some]
  rw [imported]
  dsimp only
  rw [derived]
  rfl

theorem load_pointer {buf : Option Bytes} {pointer : Option ℕ} {n : ℕ} {found : Bytes}
    (loaded : OqsxKey.load buf pointer n = some found) : pointer ≠ none := by
  intro null
  rw [null] at loaded
  obtain ⟨bytes, -, read⟩ := Option.bind_eq_some_iff.mp loaded
  cases read

theorem oqsQsKemDecapsKeyslot_eq {slot outlen : ℕ} {ct stored arrivedCt secret : Bytes}
    (component : OqsxKey.load key.privkey (key.compPrivkey slot) key.qsCtx.lengthSecretKey = some stored)
    (room : key.qsCtx.lengthSharedSecret ≤ outlen)
    (arrived : Buffer.load ct 0 key.qsCtx.lengthCiphertext = some arrivedCt)
    (agreed : (pqKem oqs).decaps stored arrivedCt = some secret) :
    oqsQsKemDecapsKeyslot oqs key false outlen ct key.qsCtx.lengthCiphertext slot =
      some { ret := 1, secretlen := key.qsCtx.lengthSharedSecret, secret } := by
  rw [oqsQsKemDecapsKeyslot, component]
  dsimp only [Option.bind_eq_bind, Option.bind_some]
  rw [if_neg (load_pointer component), if_neg Bool.false_ne_true, if_neg (not_not.mpr rfl),
    if_neg (not_lt.mpr room), arrived]
  dsimp only [Option.bind_eq_bind, Option.bind_some]
  rw [show oqs.kemDecaps stored arrivedCt = some secret from agreed]
  rfl

theorem oqsQsKemDecapsKeyslot_query {slot outlen inlen : ℕ} {ct : Bytes}
    (pointer : key.compPrivkey slot ≠ none) :
    oqsQsKemDecapsKeyslot oqs key true outlen ct inlen slot =
      some { ret := 1, secretlen := key.qsCtx.lengthSharedSecret, secret := [] } := by
  rw [oqsQsKemDecapsKeyslot]
  dsimp only
  rw [if_neg pointer, if_pos rfl]

theorem oqsHybKemDecaps_eq {k : κ} {stored sk secret : Bytes} {cts secrets : Bytes × Bytes} {secretlen : ℕ}
    (classicalPart : OqsxKey.load key.privkey (key.compPrivkey (classicalSlot key))
      key.evpInfo.lengthPrivateKey = some stored)
    (parsed : (if key.evpInfo.rawKeySupport then evp.newRawPrivateKey stored
      else evp.d2iAutoPrivateKey stored) = some k)
    (pqPart : OqsxKey.load key.privkey (key.compPrivkey (pqSlot key)) key.qsCtx.lengthSecretKey = some sk)
    (ctLength : cts.1.length = key.evpInfo.lengthPublicKey)
    (ctLengthPQ : cts.2.length = key.qsCtx.lengthCiphertext)
    (secretLength : secrets.1.length = key.evpInfo.kexLengthSecret)
    (secretLengthPQ : secrets.2.length = key.qsCtx.lengthSharedSecret)
    (agreed : (hybridKem evp oqs).decaps (k, sk) cts = some secrets)
    (room : key.evpInfo.kexLengthSecret + key.qsCtx.lengthSharedSecret ≤ secret.length) :
    oqsHybKemDecaps evp oqs key (some secret) secretlen (join key.reverseShare cts) =
      some { ret := 1, secretlen := key.evpInfo.kexLengthSecret + key.qsCtx.lengthSharedSecret,
             secret := some (writeBoth secret key.reverseShare secrets) } := by
  obtain ⟨agreedClassical, agreedPQ⟩ := Kem.parallel_decaps.mp agreed
  have whole := join_length key.reverseShare cts
  have arrived : Buffer.load ((join key.reverseShare cts).drop
      (if key.reverseShare then key.qsCtx.lengthCiphertext else 0)) 0 key.evpInfo.lengthPublicKey =
        some cts.1 := by
    rw [← ctLength, ← ctLengthPQ, load_drop (by split <;> omega), read_join_classical]
  have arrivedPQ : Buffer.load ((join key.reverseShare cts).drop
      (if key.reverseShare then 0 else key.evpInfo.lengthPublicKey)) 0 key.qsCtx.lengthCiphertext =
        some cts.2 := by
    rw [← ctLength, ← ctLengthPQ, load_drop (by split <;> omega), read_join_pq]
  have query : oqsEvpKemDecapsKeyslot evp key true [] (classicalSlot key) =
      some { ret := 1, secretlen := key.evpInfo.kexLengthSecret, secret := [] } := rfl
  have storedClassical : store secret (if key.reverseShare then key.qsCtx.lengthSharedSecret else 0)
      secrets.1 = some (write secret (if key.reverseShare then secrets.2.length else 0) secrets.1) := by
    rw [← secretLengthPQ, store_eq (by split <;> omega)]
  have storedPQ : store (write secret (if key.reverseShare then secrets.2.length else 0) secrets.1)
      (if key.reverseShare then 0 else key.evpInfo.kexLengthSecret) secrets.2 =
        some (writeBoth secret key.reverseShare secrets) := by
    rw [← secretLength, store_eq (by rw [store_length storedClassical]; split <;> omega), writeBoth]
  have positive : ¬(1 : ℤ) ≤ 0 := by decide
  rw [oqsHybKemDecaps, query, oqsQsKemDecapsKeyslot_query (load_pointer pqPart)]
  dsimp only [Option.bind_eq_bind, Option.bind_some]
  rw [if_neg positive, if_neg positive, whole, ctLength, ctLengthPQ, if_neg (not_not.mpr rfl), hybDecapsInto,
    oqsEvpKemDecapsKeyslot_eq classicalPart parsed arrived agreedClassical]
  dsimp only [Option.bind_eq_bind, Option.bind_some]
  rw [storedClassical, Option.bind_some, if_neg positive,
    oqsQsKemDecapsKeyslot_eq pqPart le_rfl arrivedPQ agreedPQ]
  dsimp only [Option.bind_eq_bind, Option.bind_some]
  rw [storedPQ, Option.bind_some, if_neg positive]
  rfl

end Decapsulation

section Exchange

variable {evp : Evp κ γ} {oqs : Liboqs γ} {alg : Algorithm} {pkey : Option κ} {pubkey privkey : Bytes}

theorem Evp.Agrees.publicKey_eq (agrees : evp.Agrees alg.evpInfo) {c : γ} {k : κ}
    (generated : evp.keygen c = some k) : evp.publicKey alg.evpInfo k = evp.getEncodedPublicKey k := by
  rw [Evp.publicKey]
  split
  · rfl
  · rename_i der
    exact agrees.sameEncoding der generated

/-- The stored private key is read back, with what fills up its place. -/
theorem Evp.Agrees.parses (agrees : evp.Agrees alg.evpInfo) {c : γ} {k : κ}
    (generated : evp.keygen c = some k) (fits : evp.Fits alg.evpInfo k) {rest : Bytes}
    (filledUp : (evp.privateKey alg.evpInfo k).length + rest.length = alg.evpInfo.lengthPrivateKey) :
    (if alg.evpInfo.rawKeySupport then evp.newRawPrivateKey (evp.privateKey alg.evpInfo k ++ rest)
      else evp.d2iAutoPrivateKey (evp.privateKey alg.evpInfo k ++ rest)) = some k := by
  split
  · rename_i raw
    have nothing : rest = [] := by
      apply List.eq_nil_of_length_eq_zero
      have exact := (fits.exact raw).2
      omega
    rw [nothing, List.append_nil, Evp.privateKey, if_pos raw]
    exact agrees.rawPrivateKey raw generated
  · rename_i der
    rw [Evp.privateKey, if_neg der]
    exact agrees.derPrivateKey der generated _

theorem getEncodedPublicKey_hyb (hyb : alg.primitive.isHybKem) :
    getEncodedPublicKey (kemKey alg pkey pubkey privkey) =
      Buffer.load pubkey sizeOfUint32 (alg.qsCtx.lengthPublicKey + alg.evpInfo.lengthPublicKey) := by
  have share : sizeOfUint32 + alg.qsCtx.lengthPublicKey + alg.evpInfo.lengthPublicKey - sizeOfUint32 =
      alg.qsCtx.lengthPublicKey + alg.evpInfo.lengthPublicKey := by omega
  have kemType : (kemKey alg pkey pubkey privkey).keytype.isHybKem := hyb
  rw [getEncodedPublicKey, if_pos kemType, ← share]
  rfl

section Stored

variable {classical pq : Bytes}

theorem kemPubkey_apart (alg : Algorithm) (sized : pq.length = alg.qsCtx.lengthPublicKey) :
    Apart (classicalOffset alg.reversed alg.qsCtx.lengthPublicKey)
      (pqOffset alg.reversed alg.evpInfo.lengthPublicKey) alg.evpInfo.lengthPublicKey pq.length
      (List.replicate (sizeOfUint32 + alg.qsCtx.lengthPublicKey + alg.evpInfo.lengthPublicKey)
        (0 : UInt8)).length := by
  rw [sized, List.length_replicate]
  exact offsets_apart le_rfl

theorem kemPrivkey_apart (alg : Algorithm) (sized : pq.length = alg.qsCtx.lengthSecretKey) :
    Apart (classicalOffset alg.reversed alg.qsCtx.lengthSecretKey)
      (pqOffset alg.reversed alg.evpInfo.lengthPrivateKey) alg.evpInfo.lengthPrivateKey pq.length
      (List.replicate (sizeOfUint32 + alg.qsCtx.lengthSecretKey + alg.evpInfo.lengthPrivateKey + sizeOfUint32)
        (0 : UInt8)).length := by
  rw [sized, List.length_replicate]
  exact offsets_apart (Nat.le_add_right _ _)

theorem load_kemPrivkey (fits : classical.length ≤ alg.evpInfo.lengthPrivateKey)
    (sized : pq.length = alg.qsCtx.lengthSecretKey) :
    (∃ rest, OqsxKey.load (some (kemPrivkey alg classical pq))
        (some (classicalOffset alg.reversed alg.qsCtx.lengthSecretKey)) alg.evpInfo.lengthPrivateKey =
          some (classical ++ rest) ∧ classical.length + rest.length = alg.evpInfo.lengthPrivateKey) ∧
      OqsxKey.load (some (kemPrivkey alg classical pq))
        (some (pqOffset alg.reversed alg.evpInfo.lengthPrivateKey)) alg.qsCtx.lengthSecretKey = some pq := by
  have apart := kemPrivkey_apart alg sized
  have whole := filled_length apart fits
  have inside := apart.classicalInside
  constructor
  · refine ⟨_, load_eq_some.mpr ⟨whole ▸ inside, read_filled_classical apart fits⟩, ?_⟩
    rw [read_length (by omega)]
    omega
  · rw [← sized]
    exact load_eq_some.mpr ⟨whole ▸ apart.pqInside, read_filled_pq apart fits⟩

variable (exact : classical.length = alg.evpInfo.lengthPublicKey)
  (sized : pq.length = alg.qsCtx.lengthPublicKey)

include exact sized

theorem kemPubkey_length :
    (kemPubkey alg classical pq).length =
      sizeOfUint32 + alg.qsCtx.lengthPublicKey + alg.evpInfo.lengthPublicKey := by
  rw [kemPubkey, filled_length (kemPubkey_apart alg sized) exact.le, List.length_replicate]

theorem read_kemPubkey :
    read (kemPubkey alg classical pq) sizeOfUint32 (alg.qsCtx.lengthPublicKey + alg.evpInfo.lengthPublicKey) =
      join alg.reversed (classical, pq) := by
  have first := read_filled_classical (kemPubkey_apart alg sized) exact.le
  have second := read_filled_pq (kemPubkey_apart alg sized) exact.le
  have nothing (buf : Bytes) (off : ℕ) : read buf off 0 = [] := List.take_zero
  rw [exact, Nat.sub_self, nothing, List.append_nil, ← kemPubkey] at first
  rw [← kemPubkey, sized] at second
  rw [classicalOffset] at first
  rw [pqOffset] at second
  rw [join]
  split
  · rename_i reversed
    rw [if_pos reversed] at first second
    rw [read_add, ← Nat.add_zero sizeOfUint32, second, Nat.add_zero, first]
  · rename_i straight
    rw [if_neg straight] at first second
    rw [Nat.add_comm alg.qsCtx.lengthPublicKey, read_add, second, ← Nat.add_zero sizeOfUint32, first]

theorem getEncodedPublicKey_kemKey (hyb : alg.primitive.isHybKem) :
    getEncodedPublicKey (kemKey alg pkey (kemPubkey alg classical pq) privkey) =
      some (join alg.reversed (classical, pq)) := by
  have whole := kemPubkey_length exact sized
  rw [getEncodedPublicKey_hyb hyb, load_eq (by rw [whole]; omega), read_kemPubkey exact sized]

end Stored

theorem setEncodedPublicKey_kemKey (hyb : alg.primitive.isHybKem) (pkey : Option κ) (privkey : Bytes)
    {parts : Bytes × Bytes}
    (sized : pubkey.length = sizeOfUint32 + alg.qsCtx.lengthPublicKey + alg.evpInfo.lengthPublicKey)
    (first : parts.1.length = alg.evpInfo.lengthPublicKey)
    (second : parts.2.length = alg.qsCtx.lengthPublicKey) :
    ∃ received : OqsxKey κ,
      setEncodedPublicKey (kemKey alg pkey pubkey privkey) (join alg.reversed parts) = some (1, received) ∧
      received.evpInfo = alg.evpInfo ∧ received.qsCtx = alg.qsCtx ∧ received.reverseShare = alg.reversed ∧
      OqsxKey.load received.pubkey (received.compPubkey (classicalSlot received))
        alg.evpInfo.lengthPublicKey = some parts.1 ∧
      OqsxKey.load received.pubkey (received.compPubkey (pqSlot received)) alg.qsCtx.lengthPublicKey =
        some parts.2 := by
  have whole := join_length alg.reversed parts
  have kemType : (kemKey alg pkey pubkey privkey).keytype.isHybKem := hyb
  have expected : (join alg.reversed parts).length =
      (kemKey alg pkey pubkey privkey).pubkeylen - sizeOfUint32 := by
    show _ = sizeOfUint32 + alg.qsCtx.lengthPublicKey + alg.evpInfo.lengthPublicKey - sizeOfUint32
    omega
  have room : sizeOfUint32 + (join alg.reversed parts).length ≤ pubkey.length := by omega
  have pubkeyAfter := write_length room
  refine ⟨{ kemKey alg pkey (write pubkey sizeOfUint32 (join alg.reversed parts)) privkey with
    privkey := none }, ?_, rfl, rfl, rfl, ?_, ?_⟩
  · rw [setEncodedPublicKey, if_pos kemType, if_neg (not_not.mpr expected)]
    have stored : (kemKey alg pkey pubkey privkey).storePublic ((kemKey alg pkey pubkey privkey).compPubkey 0)
        (join alg.reversed parts) =
          some (kemKey alg pkey (write pubkey sizeOfUint32 (join alg.reversed parts)) privkey) :=
      Option.bind_eq_some_iff.mpr ⟨_, store_eq room, rfl⟩
    exact Option.bind_eq_some_iff.mpr ⟨_, stored, rfl⟩
  · show OqsxKey.load (some _) ((kemKey alg pkey pubkey privkey).compPubkey (if alg.reversed then 1 else 0)) _ =
      _
    rw [kemKey_compPubkey_classical, classicalOffset]
    apply load_eq_some.mpr
    rw [pubkeyAfter, ← first, ← second, read_write_within (by split <;> omega) (by omega), read_join_classical]
    exact ⟨by split <;> omega, rfl⟩
  · show OqsxKey.load (some _) ((kemKey alg pkey pubkey privkey).compPubkey (if alg.reversed then 0 else 1)) _ =
      _
    rw [kemKey_compPubkey_pq, pqOffset]
    apply load_eq_some.mpr
    rw [pubkeyAfter, ← first, ← second, read_write_within (by split <;> omega) (by omega), read_join_pq]
    exact ⟨by split <;> omega, rfl⟩

theorem oqsHybKemDecaps_kemKey (agrees : evp.Agrees alg.evpInfo) (encapsulates : oqs.Encapsulates alg.qsCtx)
    {c d : γ × γ} {k : κ} {pk sk : Bytes} {cts secrets : Bytes × Bytes} {secret : Bytes} {secretlen : ℕ}
    (generated : evp.keygen c.1 = some k) (keypair : oqs.keypair c.2 = some (pk, sk))
    (fits : evp.Fits alg.evpInfo k)
    (made : (hybridKem evp oqs).encaps d (evp.getEncodedPublicKey k, pk) = some (cts, secrets))
    (ctLength : cts.1.length = alg.evpInfo.lengthPublicKey)
    (room : secrets.1.length + secrets.2.length ≤ secret.length) :
    oqsHybKemDecaps evp oqs
        (kemKey alg pkey pubkey (kemPrivkey alg (evp.privateKey alg.evpInfo k) sk)) (some secret) secretlen
        (join alg.reversed cts) =
      some { ret := 1, secretlen := secrets.1.length + secrets.2.length,
             secret := some (writeBoth secret alg.reversed secrets) } := by
  obtain ⟨madeClassical, madePQ⟩ := Kem.parallel_encaps.mp made
  have secretLength := classicalKem_secret_length agrees madeClassical
  have secretLengthPQ := encapsulates.sharedLength madePQ
  have sized := encapsulates.secretLength keypair
  have keygen : (hybridKem evp oqs).keygen c = some ((evp.getEncodedPublicKey k, pk), (k, sk)) :=
    Kem.parallel_keygen.mpr ⟨Kem.ofKeyAgreement_keygen.mpr ⟨generated, rfl⟩, keypair⟩
  have agreed := hybridKem_correct agrees encapsulates _ _ _ keygen _ _ _ made
  obtain ⟨⟨rest, classicalPart, filledUp⟩, pqPart⟩ := load_kemPrivkey fits.privateKey sized
  rw [← kemKey_compPrivkey_classical] at classicalPart
  rw [← kemKey_compPrivkey_pq] at pqPart
  rw [secretLength, secretLengthPQ] at room ⊢
  exact oqsHybKemDecaps_eq classicalPart (agrees.parses generated fits filledUp) pqPart ctLength
    (encapsulates.ciphertextLength madePQ) secretLength secretLengthPQ agreed room

/-- Both sides of a hybrid exchange end with the same secret: the share of a generated key is accepted by any
other key of its algorithm, and what is then encapsulated comes out of the generated key. -/
theorem hybrid_exchange_agrees (hyb : alg.primitive.isHybKem) (agrees : evp.Agrees alg.evpInfo)
    (encapsulates : oqs.Encapsulates alg.qsCtx) {c d : γ × γ} {client own : OqsxKey κ}
    (generated : oqsxGenkey evp oqs alg c = some (some client)) (complete : client.classicalPkey.isSome)
    (generatedOwn : oqsxGenkey evp oqs alg d = some (some own)) :
    ∃ share server, getEncodedPublicKey client = some share ∧
      setEncodedPublicKey own share = some (1, server) ∧
      ∀ e ct secret ctlen secretlen out,
        oqsHybKemEncaps evp oqs server e (some ct) (some secret) ctlen secretlen = some out → out.ret = 1 →
        ∃ sent shared, (out.ct.map fun ct => read ct 0 out.ctlen) = some sent ∧
          (out.secret.map fun secret => read secret 0 out.secretlen) = some shared ∧
          ∀ secret' secretlen', out.secretlen ≤ secret'.length →
            ∃ received, oqsHybKemDecaps evp oqs client (some secret') secretlen' sent =
                some { ret := 1, secretlen := out.secretlen, secret := some received } ∧
              read received 0 out.secretlen = shared := by
  obtain ⟨k, classical⟩ := Option.isSome_iff_exists.mp complete
  obtain ⟨pk, sk, keygen, keypair, fits, rfl⟩ := genkey_hybKem hyb generated classical
  obtain ⟨pubkey, privkey, laidOut, sized, -⟩ := genkey_hybKem_laidOut hyb generatedOwn
  have encoded := agrees.publicKey_eq keygen
  have pkLength := agrees.encodedLength keygen
  have pkLengthPQ := encapsulates.publicLength keypair
  obtain ⟨server, received, sameInfo, sameAlg, sameOrder, classicalPart, pqPart⟩ :=
    setEncodedPublicKey_kemKey hyb own.classicalPkey privkey sized
      (show (evp.getEncodedPublicKey k, pk).1.length = _ from pkLength) pkLengthPQ
  refine ⟨_, server, getEncodedPublicKey_kemKey (encoded ▸ pkLength) pkLengthPQ hyb, ?_, ?_⟩
  · rw [encoded, laidOut]
    exact received
  · intro e ct secret ctlen secretlen out encapsulated ok
    rw [← sameInfo] at classicalPart
    rw [← sameAlg] at pqPart
    obtain ⟨cts, secrets, made, ctLength, -, ctlenIs, secretlenIs, sent, shared⟩ :=
      oqsHybKemEncaps_ok (sameInfo ▸ agrees) (sameAlg ▸ encapsulates) encapsulated ok classicalPart pqPart
    rw [sameInfo] at ctLength
    rw [sameOrder] at sent shared
    refine ⟨_, _, sent, shared, ?_⟩
    intro secret' secretlen' room
    rw [secretlenIs] at room ⊢
    exact ⟨_, oqsHybKemDecaps_kemKey agrees encapsulates keygen keypair fits made ctLength room,
      read_writeBoth room⟩

end Exchange

/-- One byte is everything: a key, and the secret two of them agree on is their product. -/
def Evp.product : Evp UInt8 UInt8 where
  keygen := some
  getEncodedPublicKey k := [k]
  getRawPublicKey k := [k]
  getRawPrivateKey k := [k]
  i2dPublicKey k := [k]
  i2dPrivateKey k := [k]
  setEncodedPublicKey := List.head?
  newRawPublicKey := List.head?
  newRawPrivateKey := List.head?
  d2iPublicKey := List.head?
  d2iPrivateKey := List.head?
  d2iAutoPrivateKey := List.head?
  derive k m := some [k * m]
  digest _ tbs := tbs.take 1
  sign _ k _ tbs := some (k :: tbs)
  verify k _ sig tbs := sig == k :: tbs

def Liboqs.masked : Liboqs UInt8 where
  keypair c := some ([c], [c])
  kemEncaps d pk := some ([d + pk.headD 0], [d])
  kemDecaps sk ct := some [ct.headD 0 - sk.headD 0]
  sigSign _ _ tbs sk := some (sk ++ tbs)
  sigVerify _ tbs sig pk := sig == pk ++ tbs

def oneByteAlgorithm : Algorithm where
  primitive := .ecxHybKem
  qsCtx := { claimedNistLevel := 3, lengthPublicKey := 1, lengthSecretKey := 1, lengthCiphertext := 1,
             lengthSharedSecret := 1, lengthSignature := 1 }
  evpInfo := { rawKeySupport := true, lengthPublicKey := 1, lengthPrivateKey := 1, kexLengthSecret := 1,
               lengthSignature := 1 }
  reverseShare := true

theorem product_agrees : Evp.product.Agrees oneByteAlgorithm.evpInfo where
  encodedLength _ := rfl
  sameEncoding _ _ _ _ := rfl
  rawPrivateKey _ _ _ _ := rfl
  derPrivateKey _ _ _ _ _ := rfl
  secretLength derived := by
    cases derived
    rfl
  commutes _ _ := congrArg (fun secret => some [secret]) (UInt8.mul_comm _ _)

theorem masked_encapsulates : Liboqs.masked.Encapsulates oneByteAlgorithm.qsCtx where
  publicLength made := by
    cases made
    rfl
  secretLength made := by
    cases made
    rfl
  ciphertextLength made := by
    cases made
    rfl
  sharedLength made := by
    cases made
    rfl
  decapsLength made := by
    cases made
    rfl
  correct := by
    intro c pk sk generated d ct ss made
    cases generated
    cases made
    exact congrArg (fun secret => some [secret]) (UInt8.add_sub_cancel d c)

/-- The client holds the key pairs 3 and 5, its peer generates with 7 and 9 and encapsulates with 11 and 13. -/
theorem hybrid_exchange_agrees_oneByte :
    ∃ client own share server ct secret,
      oqsxGenkey Evp.product Liboqs.masked oneByteAlgorithm (3, 5) = some (some client) ∧
      oqsxGenkey Evp.product Liboqs.masked oneByteAlgorithm (7, 9) = some (some own) ∧
      getEncodedPublicKey client = some share ∧ setEncodedPublicKey own share = some (1, server) ∧
      oqsHybKemEncaps Evp.product Liboqs.masked server (11, 13) (some [0, 0]) (some [0, 0]) 2 2 =
        some { ret := 1, ctlen := 2, secretlen := 2, ct := some ct, secret := some secret } ∧
      ∃ received, oqsHybKemDecaps Evp.product Liboqs.masked client (some [0, 0]) 2 ct =
          some { ret := 1, secretlen := 2, secret := some received } ∧ received.take 2 = secret := by
  have generated : oqsxGenkey Evp.product Liboqs.masked oneByteAlgorithm (3, 5) =
      some (some (kemKey oneByteAlgorithm (some 3) [0, 0, 0, 1, 5, 3] [0, 0, 0, 1, 5, 3, 0, 0, 0, 0])) := rfl
  have generatedOwn : oqsxGenkey Evp.product Liboqs.masked oneByteAlgorithm (7, 9) =
      some (some (kemKey oneByteAlgorithm (some 7) [0, 0, 0, 1, 9, 7] [0, 0, 0, 1, 9, 7, 0, 0, 0, 0])) := rfl
  obtain ⟨share, server, encoded, taken, agreed⟩ :=
    hybrid_exchange_agrees rfl product_agrees masked_encapsulates generated rfl generatedOwn
  cases encoded
  cases taken
  obtain ⟨sent, shared, ct, secret, exchanged⟩ := agreed (11, 13) [0, 0] [0, 0] 2 2 _ rfl rfl
  cases ct
  cases secret
  obtain ⟨received, decapsulated, same⟩ := exchanged [0, 0] 2 (le_refl 2)
  exact ⟨_, _, _, _, _, _, generated, generatedOwn, rfl, rfl, rfl, received, decapsulated, same⟩

end PqcLab.Oqs
