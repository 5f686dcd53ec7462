import PqcLab.Oqs.Signature

/-! The public keys that certificates hold, and signatures checked with them. -/

namespace PqcLab.Oqs

open Buffer

variable {κ γ : Type}

/-- `oqsx_spki_pub_to_der`; `none` inside is an error. -/
def oqsxSpkiPubToDer (key : OqsxKey κ) : Option (Option Bytes) :=
  match key.pubkey with
  | none => some none
  | some pubkey => (Buffer.load pubkey 0 key.pubkeylen).map some

section Import

variable (evp : Evp κ γ)

def Evp.importPublicKey (info : EvpInfo) (encoded : Bytes) : Option κ :=
  if info.rawKeySupport then evp.newRawPublicKey encoded else evp.d2iPublicKey encoded

/-- `oqsx_key_recreate_classickey` of a public key; `none` inside is an error. -/
def oqsxKeyRecreateClassickey (key : OqsxKey κ) : Option (Option (OqsxKey κ)) :=
  if key.numkeys = 2 then do
    let classicalPubkeyLen := decodeUint32 (← key.pubkey)
    if classicalPubkeyLen > key.evpInfo.lengthPublicKey then return none
    let encPubkey ← OqsxKey.load key.pubkey (key.compPubkey key.idxClassic) classicalPubkeyLen
    return (evp.importPublicKey key.evpInfo encPubkey).map fun pkey => { key with classicalPkey := some pkey }
  else some (some key)

/-- `oqsx_key_from_x509pubkey` for the identifier of this algorithm; `none` inside is an error. -/
def oqsxKeyFromX509pubkey (alg : Algorithm) (data : Bytes) : Option (Option (OqsxKey κ)) :=
  if (oqsxKeyNew alg : OqsxKey κ).pubkeylen ≠ data.length then some none
  else do
    let key ← ((oqsxKeyNew alg : OqsxKey κ).allocateKeymaterial false).storePublic (some 0) data
    match key.setComposites key.keytype.isHybKem with
    | none => return none
    | some key => oqsxKeyRecreateClassickey evp key

end Import

def verifyingKey (alg : Algorithm) (pubs : ℕ → Option ℕ) (pkey : Option κ) (data : Bytes) : OqsxKey κ where
  keytype := alg.primitive
  qsCtx := alg.qsCtx
  evpInfo := alg.evpInfo
  numkeys := 2
  reverseShare := false
  privkeylen := sizeOfUint32 + alg.qsCtx.lengthSecretKey + alg.evpInfo.lengthPrivateKey
  pubkeylen := sizeOfUint32 + alg.qsCtx.lengthPublicKey + alg.evpInfo.lengthPublicKey
  compPrivkey := fun _ => none
  compPubkey := pubs
  classicalPkey := pkey
  privkey := none
  pubkey := some data

section Imported

variable {alg : Algorithm} {evp : Evp κ γ} {data : Bytes} {pubs : ℕ → Option ℕ} {n : ℕ}

theorem pubkeylen_new (sig : alg.primitive = .hybSig) : (oqsxKeyNew alg : OqsxKey κ).pubkeylen =
    sizeOfUint32 + alg.qsCtx.lengthPublicKey + alg.evpInfo.lengthPublicKey := by
  obtain ⟨primitive, qsCtx, evpInfo, reverseShare⟩ := alg
  cases sig
  rfl

theorem storePublic_new (sig : alg.primitive = .hybSig)
    (sized : sizeOfUint32 + alg.qsCtx.lengthPublicKey + alg.evpInfo.lengthPublicKey = data.length) :
    ((oqsxKeyNew alg : OqsxKey κ).allocateKeymaterial false).storePublic (some 0) data =
      some (verifyingKey alg (fun _ => none) none data) := by
  obtain ⟨primitive, qsCtx, evpInfo, reverseShare⟩ := alg
  cases sig
  have stored : store (List.replicate (sizeOfUint32 + qsCtx.lengthPublicKey + evpInfo.lengthPublicKey) 0) 0
      data = some data := store_whole (by rw [List.length_replicate, sized])
  exact Option.bind_eq_some_iff.mpr ⟨data, stored, rfl⟩

theorem verifyingKey_reversed (pkey : Option κ) : (verifyingKey alg pubs pkey data).reversed = false := by
  rw [OqsxKey.reversed, verifyingKey, Bool.and_false]

theorem verifyingKey_setComposites
    (first : OqsxKey.classicLen false alg.evpInfo.lengthPublicKey data = some n) :
    (verifyingKey alg pubs (none : Option κ) data).setComposites false =
      some (verifyingKey alg (OqsxKey.componentOffsets false alg.qsCtx.lengthPublicKey n) none data) := by
  have two : (verifyingKey alg pubs (none : Option κ) data).numkeys ≠ 1 := (by decide : (2 : ℕ) ≠ 1)
  have pointed : (verifyingKey alg pubs (none : Option κ) data).compSetOffsets false alg.evpInfo.lengthPublicKey
      alg.qsCtx.lengthPublicKey (some data) =
        some (OqsxKey.componentOffsets false alg.qsCtx.lengthPublicKey n) := by
    rw [OqsxKey.compSetOffsets, first, verifyingKey_reversed, Option.map_some]
  rw [OqsxKey.setComposites, if_neg two]
  apply Option.bind_eq_some_iff.mpr ⟨fun _ => none, rfl, _⟩
  exact Option.bind_eq_some_iff.mpr ⟨_, pointed, rfl⟩

theorem verifyingKey_unset (starts : decodeUint32 data = n) (long : n > alg.evpInfo.lengthPublicKey) :
    (verifyingKey alg pubs (none : Option κ) data).setComposites false = none := by
  have two : (verifyingKey alg pubs (none : Option κ) data).numkeys ≠ 1 := (by decide : (2 : ℕ) ≠ 1)
  have unset : (verifyingKey alg pubs (none : Option κ) data).compSetOffsets false alg.evpInfo.lengthPublicKey
      alg.qsCtx.lengthPublicKey (some data) = none := by
    rw [OqsxKey.compSetOffsets, OqsxKey.classicLen, if_neg Bool.false_ne_true, starts, if_pos long,
      Option.map_none]
  rw [OqsxKey.setComposites, if_neg two]
  apply Option.bind_eq_none_iff.mpr
  intro compPrivkey _
  apply Option.bind_eq_none_iff.mpr
  intro compPubkey set
  exact absurd (set.symm.trans unset) (Option.some_ne_none _)

theorem recreate_verifyingKey (starts : decodeUint32 data = n) (fits : n ≤ alg.evpInfo.lengthPublicKey)
    (room : sizeOfUint32 + n ≤ data.length) (pointer : pubs 0 = some sizeOfUint32) :
    oqsxKeyRecreateClassickey evp (verifyingKey alg pubs none data) =
      some ((evp.importPublicKey alg.evpInfo (read data sizeOfUint32 n)).map fun k =>
        verifyingKey alg pubs (some k) data) := by
  have loaded : OqsxKey.load (some data) (some sizeOfUint32) n = some (read data sizeOfUint32 n) := load_eq room
  have two : (verifyingKey alg pubs (none : Option κ) data).numkeys = 2 := rfl
  have first : (verifyingKey alg pubs (none : Option κ) data).idxClassic = 0 := by
    rw [OqsxKey.idxClassic, verifyingKey_reversed, if_neg Bool.false_ne_true]
  have bytes : (verifyingKey alg pubs (none : Option κ) data).pubkey = some data := rfl
  have pointed : (verifyingKey alg pubs (none : Option κ) data).compPubkey 0 = some sizeOfUint32 := pointer
  have info : (verifyingKey alg pubs (none : Option κ) data).evpInfo = alg.evpInfo := rfl
  rw [oqsxKeyRecreateClassickey, if_pos two, first, bytes, pointed, info]
  rw [Option.bind_eq_bind, Option.bind_some]
  dsimp only
  rw [starts, if_neg (not_lt.mpr fits), loaded]
  rfl

theorem oqsxKeyFromX509pubkey_result (sig : alg.primitive = .hybSig)
    (sized : sizeOfUint32 + alg.qsCtx.lengthPublicKey + alg.evpInfo.lengthPublicKey = data.length)
    (starts : decodeUint32 data = n) :
    oqsxKeyFromX509pubkey evp alg data =
      some (if n > alg.evpInfo.lengthPublicKey then none
        else (evp.importPublicKey alg.evpInfo (read data sizeOfUint32 n)).map fun k =>
          verifyingKey alg (OqsxKey.componentOffsets false alg.qsCtx.lengthPublicKey n) (some k) data) := by
  have same : ¬(oqsxKeyNew alg : OqsxKey κ).pubkeylen ≠ data.length := by
    rw [pubkeylen_new sig, sized]
    exact not_not.mpr rfl
  have notKem : (verifyingKey alg (fun _ => none) (none : Option κ) data).keytype.isHybKem = false := by
    rw [show (verifyingKey alg (fun _ => none) (none : Option κ) data).keytype = alg.primitive from rfl]
    exact KeyType.isHybKem_hybSig sig
  rw [oqsxKeyFromX509pubkey, if_neg same, storePublic_new sig sized, Option.bind_eq_bind, Option.bind_some,
    notKem]
  by_cases long : n > alg.evpInfo.lengthPublicKey
  · rw [verifyingKey_unset starts long, if_pos long]
    rfl
  · rw [verifyingKey_setComposites (OqsxKey.classicLen_of_starts starts (not_lt.mp long)), if_neg long]
    exact recreate_verifyingKey starts (not_lt.mp long) (by omega) rfl

end Imported

/-- The length of the classical key, that key, the other one, and what is left of the buffer. -/
structure PublicKeyOf (alg : Algorithm) (data classical pq : Bytes) : Prop where
  framed : ∃ rest, data = encodeUint32 classical.length ++ (classical ++ (pq ++ rest))
  sized : sizeOfUint32 + alg.qsCtx.lengthPublicKey + alg.evpInfo.lengthPublicKey = data.length
  classicalFits : classical.length ≤ alg.evpInfo.lengthPublicKey
  pqLength : pq.length = alg.qsCtx.lengthPublicKey

section Accepted

variable {alg : Algorithm} {evp : Evp κ γ} {data classical pq : Bytes}

theorem PublicKeyOf.decoded (form : PublicKeyOf alg data classical pq)
    (small : alg.evpInfo.lengthPublicKey < 2 ^ 32) : decodeUint32 data = classical.length := by
  obtain ⟨rest, rfl⟩ := form.framed
  exact decodeUint32_framed (form.classicalFits.trans_lt small)

theorem PublicKeyOf.classical_eq (form : PublicKeyOf alg data classical pq) :
    read data sizeOfUint32 classical.length = classical := by
  obtain ⟨rest, rfl⟩ := form.framed
  exact read_framed _ _

theorem PublicKeyOf.pq_eq (form : PublicKeyOf alg data classical pq) :
    read data (sizeOfUint32 + classical.length) alg.qsCtx.lengthPublicKey = pq := by
  obtain ⟨rest, framed⟩ := form.framed
  have front : (encodeUint32 classical.length).length = sizeOfUint32 := encodeUint32_length _
  rw [← form.pqLength, framed, read_append_right front, ← Nat.add_zero classical.length, read_append_right rfl,
    read_append_left (Nat.zero_add _).le, read_self rfl]

theorem publicKeyOf_of_sized {n : ℕ}
    (sized : sizeOfUint32 + alg.qsCtx.lengthPublicKey + alg.evpInfo.lengthPublicKey = data.length)
    (starts : decodeUint32 data = n) (fits : n ≤ alg.evpInfo.lengthPublicKey) :
    PublicKeyOf alg data (read data sizeOfUint32 n)
      (read data (sizeOfUint32 + n) alg.qsCtx.lengthPublicKey) := by
  have front : sizeOfUint32 = 4 := rfl
  have first : (read data sizeOfUint32 n).length = n := read_length (by omega)
  refine ⟨⟨read data (sizeOfUint32 + n + alg.qsCtx.lengthPublicKey) (alg.evpInfo.lengthPublicKey - n), ?_⟩,
    sized, first.le.trans fits, read_length (by omega)⟩
  rw [first, ← read_add]
  exact framed_of_long starts (by omega)

theorem oqsxKeyFromX509pubkey_accepts (sig : alg.primitive = .hybSig)
    (small : alg.evpInfo.lengthPublicKey < 2 ^ 32) (evp : Evp κ γ) (data : Bytes) :
    ∃ imported, oqsxKeyFromX509pubkey evp alg data = some imported ∧ ∀ verifier, imported = some verifier ↔
      ∃ classical pq k, PublicKeyOf alg data classical pq ∧ evp.importPublicKey alg.evpInfo classical = some k ∧
        verifier = verifyingKey alg
          (OqsxKey.componentOffsets false alg.qsCtx.lengthPublicKey classical.length) (some k) data := by
  by_cases sized : sizeOfUint32 + alg.qsCtx.lengthPublicKey + alg.evpInfo.lengthPublicKey = data.length
  · obtain ⟨n, starts⟩ : ∃ n, decodeUint32 data = n := ⟨_, rfl⟩
    refine ⟨_, oqsxKeyFromX509pubkey_result sig sized starts, fun verifier => ⟨?_, ?_⟩⟩
    · intro accepted
      obtain ⟨fits, accepted⟩ := Option.ite_none_left_eq_some.mp accepted
      obtain ⟨k, taken, same⟩ := Option.map_eq_some_iff.mp accepted
      have form := publicKeyOf_of_sized sized starts (not_lt.mp fits)
      have first : (read data sizeOfUint32 n).length = n := by rw [← form.decoded small, starts]
      exact ⟨_, _, k, form, taken, by rw [first, same]⟩
    · intro accepted
      obtain ⟨classical, pq, k, form, taken, same⟩ := accepted
      have length : n = classical.length := starts.symm.trans (form.decoded small)
      rw [length, form.classical_eq, taken, if_neg (not_lt.mpr form.classicalFits), same]
      rfl
  · have refused : (oqsxKeyNew alg : OqsxKey κ).pubkeylen ≠ data.length := by
      rw [pubkeylen_new sig]
      exact sized
    refine ⟨none, if_pos refused, fun verifier => ⟨nofun, ?_⟩⟩
    intro accepted
    obtain ⟨classical, pq, k, form, -⟩ := accepted
    exact absurd form.sized sized

theorem PublicKeyOf.load_pq (form : PublicKeyOf alg data classical pq) :
    OqsxKey.load (some data) (OqsxKey.componentOffsets false alg.qsCtx.lengthPublicKey classical.length 1)
      alg.qsCtx.lengthPublicKey = some pq := by
  have sized := form.sized
  have fits := form.classicalFits
  have room : sizeOfUint32 + classical.length + alg.qsCtx.lengthPublicKey ≤ data.length := by omega
  exact load_eq_some.mpr ⟨room, form.pq_eq⟩

theorem verifyingKey_verifies {oqs : Liboqs γ} {contextString signature tbs classicalSig pqSig : Bytes} {k : κ}
    (sig : alg.primitive = .hybSig)
    (small : sizeOfUint32 + alg.evpInfo.lengthSignature + alg.qsCtx.lengthSignature < 2 ^ 32)
    (form : PublicKeyOf alg data classical pq)
    (signed : SignatureOf alg.evpInfo alg.qsCtx signature classicalSig pqSig)
    (verified : evp.verify k (classicalMd alg.qsCtx.claimedNistLevel) classicalSig
      (evp.digest (classicalMd alg.qsCtx.claimedNistLevel) tbs))
    (verifiedPq : oqs.sigVerify contextString tbs pqSig pq) :
    oqsSigVerifyDirectly evp oqs (verifyingKey alg
      (OqsxKey.componentOffsets false alg.qsCtx.lengthPublicKey classical.length) (some k) data)
      contextString signature tbs = some 1 := by
  have length := signed.length
  have classicalFits := signed.classicalFits
  have pqFits := signed.pqFits
  have short : signature.length < 2 ^ 64 := by omega
  have smallClassical : sizeOfUint32 + alg.evpInfo.lengthSignature < 2 ^ 32 := by omega
  exact Iff.mpr (oqsSigVerifyDirectly_eq_one sig rfl form.load_pq short smallClassical)
    ⟨classicalSig, pqSig, signed, verified, verifiedPq⟩

/-- Whatever a certificate holds and whatever signature arrives, both are handled within what arrived, and the
signature is accepted exactly if both are of the right form and both parts verify with the keys of the
certificate. -/
theorem certificate_input_checked (sig : alg.primitive = .hybSig) (small : alg.evpInfo.lengthPublicKey < 2 ^ 32)
    (smallSignature : sizeOfUint32 + alg.evpInfo.lengthSignature < 2 ^ 32) (evp : Evp κ γ) (oqs : Liboqs γ)
    (data : Bytes) :
    ∃ imported, oqsxKeyFromX509pubkey evp alg data = some imported ∧ ∀ verifier, imported = some verifier →
      ∃ classical pq k, PublicKeyOf alg data classical pq ∧ evp.importPublicKey alg.evpInfo classical = some k ∧
        ∀ contextString signature tbs, signature.length < 2 ^ 64 →
          ∃ rv, oqsSigVerifyDirectly evp oqs verifier contextString signature tbs = some rv ∧
            (rv = 0 ∨ rv = 1) ∧
            (rv = 1 ↔ ∃ classicalSig pqSig, SignatureOf alg.evpInfo alg.qsCtx signature classicalSig pqSig ∧
              evp.verify k (classicalMd alg.qsCtx.claimedNistLevel) classicalSig
                (evp.digest (classicalMd alg.qsCtx.claimedNistLevel) tbs) ∧
              oqs.sigVerify contextString tbs pqSig pq) := by
  obtain ⟨imported, ran, accepts⟩ := oqsxKeyFromX509pubkey_accepts sig small evp data
  refine ⟨imported, ran, ?_⟩
  intro verifier accepted
  obtain ⟨classical, pq, k, form, taken, rfl⟩ := (accepts verifier).mp accepted
  refine ⟨classical, pq, k, form, taken, ?_⟩
  intro contextString signature tbs short
  exact oqsSigVerifyDirectly_hybrid sig rfl form.load_pq short smallSignature

end Accepted

/-- The certificate of the key pairs 3 and 5, and a signature made with them. -/
theorem certificate_input_checked_oneByte :
    ∃ verifier, oqsxKeyFromX509pubkey Evp.product oneByteSignature [0, 0, 0, 1, 3, 5] = some (some verifier) ∧
      oqsSigVerifyDirectly Evp.product Liboqs.initialled verifier [] [0, 0, 0, 2, 3, 1, 5, 1] [1, 2] = some 1 := by
  have hybrid : oneByteSignature.primitive = .hybSig := rfl
  have form : PublicKeyOf oneByteSignature [0, 0, 0, 1, 3, 5] [3] [5] := ⟨⟨[], rfl⟩, rfl, le_rfl, rfl⟩
  obtain ⟨imported, ran, accepts⟩ := oqsxKeyFromX509pubkey_accepts hybrid (by decide) Evp.product
    [0, 0, 0, 1, 3, 5]
  have accepted := (accepts _).mpr ⟨[3], [5], 3, form, rfl, rfl⟩
  obtain ⟨imported', ran', handled⟩ := certificate_input_checked hybrid (by decide) (by decide) Evp.product
    Liboqs.initialled [0, 0, 0, 1, 3, 5]
  have same := (Option.some.inj (ran'.symm.trans ran)).trans accepted
  obtain ⟨classical, pq, k, form', taken, checked⟩ := handled _ same
  obtain ⟨rv, verified, -, means⟩ := checked [] [0, 0, 0, 2, 3, 1, 5, 1] [1, 2] (by decide)
  have length : classical.length = 1 := (form'.decoded (by decide)).symm.trans (form.decoded (by decide))
  obtain rfl : classical = [3] := by
    rw [← form'.classical_eq, length]
    rfl
  obtain rfl : pq = [5] := by
    rw [← form'.pq_eq, length]
    rfl
  cases taken
  have signed : SignatureOf oneByteSignature.evpInfo oneByteSignature.qsCtx [0, 0, 0, 2, 3, 1, 5, 1] [3, 1] [5, 1] :=
    ⟨rfl, by decide, by decide, by decide⟩
  exact ⟨_, ran.trans (congrArg some accepted),
    verified.trans (congrArg some (means.mpr ⟨_, _, signed, rfl, rfl⟩))⟩

def Evp.Signs (evp : Evp κ γ) (info : EvpInfo) : Prop :=
  ∀ {c k}, evp.keygen c = some k → ∃ k', evp.importPublicKey info (evp.publicKey info k) = some k' ∧
    ∀ {d md digest signature}, evp.sign d k md digest = some signature → evp.verify k' md signature digest

structure Liboqs.Signs (oqs : Liboqs γ) (qs : OqsAlg) : Prop where
  publicLength : ∀ {c pk sk}, oqs.keypair c = some (pk, sk) → pk.length = qs.lengthPublicKey
  secretLength : ∀ {c pk sk}, oqs.keypair c = some (pk, sk) → sk.length = qs.lengthSecretKey
  within : oqs.SignsWithin qs
  correct : ∀ {c pk sk d contextString tbs signature}, oqs.keypair c = some (pk, sk) →
    oqs.sigSign d contextString tbs sk = some signature → oqs.sigVerify contextString tbs signature pk

section Generated

variable {alg : Algorithm} {evp : Evp κ γ} {oqs : Liboqs γ} {classical pq : Bytes}

theorem sigPubkey_length (fits : classical.length ≤ alg.evpInfo.lengthPublicKey)
    (sized : pq.length = alg.qsCtx.lengthPublicKey) :
    (sigPubkey alg classical pq).length =
      sizeOfUint32 + alg.qsCtx.lengthPublicKey + alg.evpInfo.lengthPublicKey := by
  have room : sizeOfUint32 + classical.length + pq.length ≤ (List.replicate (sizeOfUint32 +
      alg.qsCtx.lengthPublicKey + alg.evpInfo.lengthPublicKey) (0 : UInt8)).length := by
    rw [List.length_replicate]
    omega
  exact (filled_length (consecutive_apart room) le_rfl).trans List.length_replicate

theorem sigPubkey_form (fits : classical.length ≤ alg.evpInfo.lengthPublicKey)
    (sized : pq.length = alg.qsCtx.lengthPublicKey) :
    PublicKeyOf alg (sigPubkey alg classical pq) classical pq := by
  have framed : ∃ rest, sigPubkey alg classical pq =
      encodeUint32 classical.length ++ (classical ++ (pq ++ rest)) :=
    filled_consecutive (by rw [List.length_replicate]; omega)
  exact ⟨framed, (sigPubkey_length fits sized).symm, fits, sized⟩

theorem load_sigPrivkey (fits : classical.length ≤ alg.evpInfo.lengthPrivateKey)
    (sized : pq.length = alg.qsCtx.lengthSecretKey) :
    OqsxKey.load (some (sigPrivkey alg classical pq))
      (OqsxKey.componentOffsets false alg.qsCtx.lengthSecretKey classical.length 1) alg.qsCtx.lengthSecretKey =
        some pq := by
  have room : sizeOfUint32 + classical.length + pq.length ≤ (List.replicate (sizeOfUint32 +
      alg.qsCtx.lengthSecretKey + alg.evpInfo.lengthPrivateKey + sizeOfUint32) (0 : UInt8)).length := by
    rw [List.length_replicate]
    omega
  have apart := consecutive_apart room
  have length : (sigPrivkey alg classical pq).length = _ := filled_length apart le_rfl
  have second : read (sigPrivkey alg classical pq) (sizeOfUint32 + classical.length) pq.length = pq :=
    read_filled_pq apart le_rfl
  rw [← length, sized] at room
  rw [sized] at second
  exact load_eq_some.mpr ⟨room, second⟩

theorem oqsxSpkiPubToDer_sigKey {pkey : Option κ} {classicalPrivate sk : Bytes}
    (fits : classical.length ≤ alg.evpInfo.lengthPublicKey) (sized : pq.length = alg.qsCtx.lengthPublicKey) :
    oqsxSpkiPubToDer (sigKey alg pkey classical classicalPrivate pq sk) =
      some (some (sigPubkey alg classical pq)) := by
  have length := sigPubkey_length fits sized
  have whole : Buffer.load (sigPubkey alg classical pq) 0
      (sizeOfUint32 + alg.qsCtx.lengthPublicKey + alg.evpInfo.lengthPublicKey) =
        some (sigPubkey alg classical pq) := load_eq_some.mpr ⟨by omega, read_self length⟩
  exact Option.map_eq_some_iff.mpr ⟨_, whole, rfl⟩

theorem hybridKey_signature_verifies (sig : alg.primitive = .hybSig) (signsPq : oqs.Signs alg.qsCtx)
    (smallSignature : sizeOfUint32 + alg.evpInfo.lengthSignature + alg.qsCtx.lengthSignature < 2 ^ 32)
    {pubs privs : ℕ → Option ℕ} {pubkey privkey pk sk data : Bytes} {k k' : κ} {c : γ}
    (component : OqsxKey.load (some privkey) (privs 1) alg.qsCtx.lengthSecretKey = some sk)
    (keypair : oqs.keypair c = some (pk, sk)) (form : PublicKeyOf alg data classical pk)
    (verifies : ∀ {d md digest signature}, evp.sign d k md digest = some signature →
      evp.verify k' md signature digest)
    {sent received : List Bytes} (same : sent.flatten = received.flatten) (d : γ × γ) {buf : Bytes} {siglen : ℕ}
    (room : siglen ≤ buf.length) :
    ∃ out, oqsSigDigestSignFinal evp oqs
        (contextFor (hybridKey alg pubs privs (some k) pubkey privkey) .sign sent) d (some buf) siglen =
          some out ∧
      (out.rv = 1 → ∃ after, out.sig = some after ∧
        oqsSigDigestVerifyFinal evp oqs (contextFor (verifyingKey alg
            (OqsxKey.componentOffsets false alg.qsCtx.lengthPublicKey classical.length) (some k') data)
          .verify received) (read after 0 out.siglen) = some 1) := by
  rw [(contextFor_collected _ .sign sent).signFinal]
  have total : ∃ out, oqsSigSignDirectly evp oqs (hybridKey alg pubs privs (some k) pubkey privkey) [] d
      (some buf) siglen sent.flatten = some out :=
    oqsSigSignDirectly_total sig rfl component signsPq.within d room
  obtain ⟨out, signed⟩ := total
  refine ⟨out, signed, ?_⟩
  intro ok
  obtain ⟨after, classicalSig, pqSig, written, signature, signedClassical, signedPq⟩ :=
    oqsSigSignDirectly_hybrid sig rfl component signsPq.within signed ok
  refine ⟨after, written, ?_⟩
  rw [(contextFor_collected _ .verify received).verifyFinal, ← same]
  exact verifyingKey_verifies sig smallSignature form signature (verifies signedClassical)
    (signsPq.correct keypair signedPq)

end Generated

/-- A signature made with a generated key verifies with the key that is imported from its certificate, however
the message is cut into pieces on either side, with no digest named. -/
theorem hybrid_signature_verifies {alg : Algorithm} {evp : Evp κ γ} {oqs : Liboqs γ}
    (sig : alg.primitive = .hybSig) (signs : evp.Signs alg.evpInfo) (signsPq : oqs.Signs alg.qsCtx)
    (smallPublic : alg.evpInfo.lengthPublicKey < 2 ^ 32) (smallPrivate : alg.evpInfo.lengthPrivateKey < 2 ^ 32)
    (smallSignature : sizeOfUint32 + alg.evpInfo.lengthSignature + alg.qsCtx.lengthSignature < 2 ^ 32)
    {coins : γ × γ} {signer : OqsxKey κ} (generated : oqsxGenkey evp oqs alg coins = some (some signer))
    (complete : signer.classicalPkey.isSome) :
    ∃ data verifier, oqsxSpkiPubToDer signer = some (some data) ∧
      oqsxKeyFromX509pubkey evp alg data = some (some verifier) ∧
      ∀ sent received, sent.flatten = received.flatten → ∀ d buf siglen, siglen ≤ buf.length →
        ∃ out, oqsSigDigestSignFinal evp oqs (contextFor signer .sign sent) d (some buf) siglen = some out ∧
          (out.rv = 1 → ∃ after, out.sig = some after ∧
            oqsSigDigestVerifyFinal evp oqs (contextFor verifier .verify received) (read after 0 out.siglen) =
              some 1) := by
  obtain ⟨k, classical⟩ := Option.isSome_iff_exists.mp complete
  obtain ⟨pk, sk, keygen, keypair, fits, rfl⟩ := genkey_hybSig sig smallPublic smallPrivate generated classical
  have publicLength := signsPq.publicLength keypair
  have form := sigPubkey_form fits.publicKey publicLength
  have component := load_sigPrivkey fits.privateKey (signsPq.secretLength keypair)
  obtain ⟨k', taken, verifies⟩ := signs keygen
  obtain ⟨imported, ran, accepts⟩ := oqsxKeyFromX509pubkey_accepts sig smallPublic evp _
  have accepted := (accepts _).mpr ⟨_, _, k', form, taken, rfl⟩
  refine ⟨_, _, oqsxSpkiPubToDer_sigKey fits.publicKey publicLength, ran.trans (congrArg some accepted), ?_⟩
  intro sent received same d buf siglen room
  exact hybridKey_signature_verifies sig signsPq smallSignature component keypair form verifies same d room

theorem product_signs : Evp.product.Signs oneByteSignature.evpInfo := by
  intro c k generated
  refine ⟨k, rfl, ?_⟩
  intro d md digest signature signed
  cases signed
  exact beq_self_eq_true _

theorem initialled_signs : Liboqs.initialled.Signs oneByteSignature.qsCtx where
  publicLength made := by
    cases made
    rfl
  secretLength made := by
    cases made
    rfl
  within := by
    intro c contextString tbs sk signature signed
    cases signed
    exact ⟨nofun, Nat.succ_le_succ (List.length_take_le _ _)⟩
  correct := by
    intro c pk sk d contextString tbs signature made signed
    cases made
    cases signed
    exact beq_self_eq_true _

/-- The signer holds the key pairs 3 and 5; the message comes in two pieces there, and in one here. -/
theorem hybrid_signature_verifies_oneByte :
    ∃ signer data verifier signature,
      oqsxGenkey Evp.product Liboqs.initialled oneByteSignature (3, 5) = some (some signer) ∧
      oqsxSpkiPubToDer signer = some (some data) ∧
      oqsxKeyFromX509pubkey Evp.product oneByteSignature data = some (some verifier) ∧
      oqsSigDigestSignFinal Evp.product Liboqs.initialled (contextFor signer .sign [[1], [2]]) (7, 9)
        (some (List.replicate 8 0)) 8 = some { rv := 1, sig := some signature, siglen := 8 } ∧
      oqsSigDigestVerifyFinal Evp.product Liboqs.initialled (contextFor verifier .verify [[1, 2]]) signature =
        some 1 := by
  have generated : oqsxGenkey Evp.product Liboqs.initialled oneByteSignature (3, 5) =
      some (some (sigKey oneByteSignature (some 3) [3] [3] [5] [5])) := rfl
  obtain ⟨data, verifier, exported, imported, checked⟩ := hybrid_signature_verifies rfl product_signs
    initialled_signs (by decide) (by decide) (by decide) generated rfl
  obtain ⟨out, signed, verifies⟩ := checked [[1], [2]] [[1, 2]] rfl (7, 9) (List.replicate 8 0) 8 le_rfl
  cases signed
  obtain ⟨after, made, verified⟩ := verifies rfl
  cases made
  exact ⟨_, data, verifier, _, generated, exported, imported, rfl, verified⟩

end PqcLab.Oqs
