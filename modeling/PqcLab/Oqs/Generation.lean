import PqcLab.Oqs.Key

/-! What key generation leaves in the buffers of a hybrid key. -/

namespace PqcLab.Oqs

open Buffer

variable {κ γ : Type}

def Evp.publicKey (evp : Evp κ γ) (info : EvpInfo) (pkey : κ) : Bytes :=
  if info.rawKeySupport then evp.getEncodedPublicKey pkey else evp.i2dPublicKey pkey

def Evp.privateKey (evp : Evp κ γ) (info : EvpInfo) (pkey : κ) : Bytes :=
  if info.rawKeySupport then evp.getRawPrivateKey pkey else evp.i2dPrivateKey pkey

structure Evp.Fits (evp : Evp κ γ) (info : EvpInfo) (pkey : κ) : Prop where
  publicKey : (evp.publicKey info pkey).length ≤ info.lengthPublicKey
  privateKey : (evp.privateKey info pkey).length ≤ info.lengthPrivateKey
  exact : info.rawKeySupport → (evp.publicKey info pkey).length = info.lengthPublicKey ∧
    (evp.privateKey info pkey).length = info.lengthPrivateKey

namespace OqsxKey

variable {key : OqsxKey κ}

structure Kept (key key' : OqsxKey κ) : Prop where
  same : key' = { key with pubkey := key'.pubkey, privkey := key'.privkey }
  pubkey : key'.pubkey.map List.length = key.pubkey.map List.length
  privkey : key'.privkey.map List.length = key.privkey.map List.length

theorem Kept.refl : key.Kept key := ⟨rfl, rfl, rfl⟩

theorem Kept.evpInfo {key' : OqsxKey κ} (kept : key.Kept key') : key'.evpInfo = key.evpInfo := by
  rw [kept.same]

theorem Kept.classicalPkey {key' : OqsxKey κ} (kept : key.Kept key') :
    key'.classicalPkey = key.classicalPkey := by
  rw [kept.same]

theorem Kept.trans {key' key'' : OqsxKey κ} (first : key.Kept key') (second : key'.Kept key'') :
    key.Kept key'' := by
  refine ⟨?_, second.pubkey.trans first.pubkey, second.privkey.trans first.privkey⟩
  rw [second.same, first.same]

theorem Kept.withClassicalPkey {key' : OqsxKey κ} (kept : key.Kept key') (pkey : Option κ) :
    Kept { key with classicalPkey := pkey } { key' with classicalPkey := pkey } := by
  refine ⟨?_, kept.pubkey, kept.privkey⟩
  rw [kept.same]

theorem store_length {buf : Option Bytes} {pointer : Option ℕ} {data after : Bytes}
    (stored : store buf pointer data = some after) : some after.length = buf.map List.length := by
  obtain ⟨bytes, rfl, stored⟩ := Option.bind_eq_some_iff.mp stored
  obtain ⟨off, -, stored⟩ := Option.bind_eq_some_iff.mp stored
  exact congrArg some (Buffer.store_length stored)

theorem storePublic_kept {pointer : Option ℕ} {data : Bytes} {key' : OqsxKey κ}
    (stored : key.storePublic pointer data = some key') : key.Kept key' := by
  obtain ⟨pubkey, copied, same⟩ := Option.bind_eq_some_iff.mp stored
  cases same
  exact ⟨rfl, store_length copied, rfl⟩

theorem storePrivate_kept {pointer : Option ℕ} {data : Bytes} {key' : OqsxKey κ}
    (stored : key.storePrivate pointer data = some key') : key.Kept key' := by
  obtain ⟨privkey, copied, same⟩ := Option.bind_eq_some_iff.mp stored
  cases same
  exact ⟨rfl, rfl, store_length copied⟩

theorem encodeLengths_kept {publen privlen : ℕ} {key' : OqsxKey κ}
    (encoded : key.encodeLengths publen privlen = some key') : key.Kept key' := by
  obtain ⟨first, storedPublic, storedPrivate⟩ := Option.bind_eq_some_iff.mp encoded
  exact (storePublic_kept storedPublic).trans (storePrivate_kept storedPrivate)

variable (key)

def storeClassical (pubkey privkey : Option ℕ) (publicKey privateKey : Bytes) : Option (OqsxKey κ) := do
  let key ← key.storePublic pubkey publicKey
  let key ← key.storePrivate privkey privateKey
  key.encodeLengths publicKey.length privateKey.length

end OqsxKey

section Classical

variable {evp : Evp κ γ} {key key' : OqsxKey κ} {pubkey privkey : Option ℕ} {pkey k : κ}

theorem storeRawKeys_stores (raw : key.evpInfo.rawKeySupport)
    (made : storeRawKeys evp key pubkey privkey pkey = some (key', some k)) :
    pkey = k ∧ evp.Fits key.evpInfo k ∧
      key.storeClassical pubkey privkey (evp.publicKey key.evpInfo k) (evp.privateKey key.evpInfo k) =
        some key' := by
  unfold storeRawKeys at made
  split at made
  · cases made
  · rename_i publicExact
    obtain ⟨first, storedPublic, made⟩ := Option.bind_eq_some_iff.mp made
    split at made
    · cases made
    · obtain ⟨second, storedPrivate, made⟩ := Option.bind_eq_some_iff.mp made
      split at made
      · cases made
      · rename_i privateExact
        obtain ⟨third, encoded, same⟩ := Option.bind_eq_some_iff.mp made
        cases same
        rw [not_not] at publicExact privateExact
        rw [(OqsxKey.storePrivate_kept storedPrivate).evpInfo, (OqsxKey.storePublic_kept storedPublic).evpInfo]
          at privateExact
        have publicKey : evp.publicKey key.evpInfo pkey = evp.getEncodedPublicKey pkey := if_pos raw
        have privateKey : evp.privateKey key.evpInfo pkey = evp.getRawPrivateKey pkey := if_pos raw
        refine ⟨rfl, ⟨?_, ?_, fun _ => ?_⟩, ?_⟩
        · rw [publicKey, publicExact]
        · rw [privateKey, privateExact]
        · rw [publicKey, privateKey]
          exact ⟨publicExact, privateExact⟩
        · rw [publicKey, privateKey]
          exact Option.bind_eq_some_iff.mpr ⟨first, storedPublic,
            Option.bind_eq_some_iff.mpr ⟨second, storedPrivate, encoded⟩⟩

theorem storeDerKeys_stores (der : ¬key.evpInfo.rawKeySupport)
    (made : storeDerKeys evp key pubkey privkey pkey = some (key', some k)) :
    pkey = k ∧ evp.Fits key.evpInfo k ∧
      key.storeClassical pubkey privkey (evp.publicKey key.evpInfo k) (evp.privateKey key.evpInfo k) =
        some key' := by
  obtain ⟨first, storedPublic, made⟩ := Option.bind_eq_some_iff.mp made
  split at made
  · cases made
  · rename_i publicFits
    obtain ⟨second, storedPrivate, made⟩ := Option.bind_eq_some_iff.mp made
    split at made
    · cases made
    · rename_i privateFits
      split at made
      · cases made
      · obtain ⟨third, encoded, same⟩ := Option.bind_eq_some_iff.mp made
        cases same
        rw [not_lt] at publicFits privateFits
        rw [(OqsxKey.storePublic_kept storedPublic).evpInfo] at publicFits
        rw [(OqsxKey.storePrivate_kept storedPrivate).evpInfo, (OqsxKey.storePublic_kept storedPublic).evpInfo]
          at privateFits
        have publicKey : evp.publicKey key.evpInfo pkey = evp.i2dPublicKey pkey := if_neg der
        have privateKey : evp.privateKey key.evpInfo pkey = evp.i2dPrivateKey pkey := if_neg der
        refine ⟨rfl, ⟨?_, ?_, fun raw => absurd raw der⟩, ?_⟩
        · rwa [publicKey]
        · rwa [privateKey]
        · rw [publicKey, privateKey]
          exact Option.bind_eq_some_iff.mpr ⟨first, storedPublic,
            Option.bind_eq_some_iff.mpr ⟨second, storedPrivate, encoded⟩⟩

theorem genEvpKey_stores {coin : γ}
    (made : genEvpKey evp key pubkey privkey coin = some (key', some k)) :
    evp.keygen coin = some k ∧ evp.Fits key.evpInfo k ∧
      key.storeClassical pubkey privkey (evp.publicKey key.evpInfo k) (evp.privateKey key.evpInfo k) =
        some key' := by
  unfold genEvpKey at made
  split at made
  · cases made
  · rename_i pkey generated
    split at made
    · rename_i raw
      obtain ⟨rfl, fits, stored⟩ := storeRawKeys_stores raw made
      exact ⟨generated, fits, stored⟩
    · rename_i der
      obtain ⟨rfl, fits, stored⟩ := storeDerKeys_stores der made
      exact ⟨generated, fits, stored⟩

theorem genEvpKey_kept {coin : γ} {made : Option κ}
    (generated : genEvpKey evp key pubkey privkey coin = some (key', made)) : key.Kept key' := by
  unfold genEvpKey at generated
  split at generated
  · cases generated
    exact .refl
  · split at generated
    · unfold storeRawKeys at generated
      split at generated
      · cases generated
        exact .refl
      · obtain ⟨first, storedPublic, generated⟩ := Option.bind_eq_some_iff.mp generated
        apply (OqsxKey.storePublic_kept storedPublic).trans
        split at generated
        · cases generated
          exact .refl
        · obtain ⟨second, storedPrivate, generated⟩ := Option.bind_eq_some_iff.mp generated
          apply (OqsxKey.storePrivate_kept storedPrivate).trans
          split at generated
          · cases generated
            exact .refl
          · obtain ⟨third, encoded, same⟩ := Option.bind_eq_some_iff.mp generated
            cases same
            exact OqsxKey.encodeLengths_kept encoded
    · obtain ⟨first, storedPublic, generated⟩ := Option.bind_eq_some_iff.mp generated
      apply (OqsxKey.storePublic_kept storedPublic).trans
      split at generated
      · cases generated
        exact .refl
      · obtain ⟨second, storedPrivate, generated⟩ := Option.bind_eq_some_iff.mp generated
        apply (OqsxKey.storePrivate_kept storedPrivate).trans
        split at generated
        · cases generated
          exact .refl
        · split at generated
          · cases generated
            exact .refl
          · obtain ⟨third, encoded, same⟩ := Option.bind_eq_some_iff.mp generated
            cases same
            exact OqsxKey.encodeLengths_kept encoded

theorem genOqs_kept {oqs : Liboqs γ} {coin : γ}
    (generated : oqsxKeyGenOqs oqs key coin = some (0, key')) : key.Kept key' := by
  unfold oqsxKeyGenOqs at generated
  split at generated
  · injection generated with same
    injection same with code
    cases code
  · obtain ⟨first, storedPublic, generated⟩ := Option.bind_eq_some_iff.mp generated
    obtain ⟨second, storedPrivate, same⟩ := Option.bind_eq_some_iff.mp generated
    cases same
    exact (OqsxKey.storePublic_kept storedPublic).trans (OqsxKey.storePrivate_kept storedPrivate)

end Classical

def Algorithm.reversed (alg : Algorithm) : Bool := alg.primitive.isHybKem && alg.reverseShare

def hybridKey (alg : Algorithm) (pubs privs : ℕ → Option ℕ) (pkey : Option κ) (pubkey privkey : Bytes) :
    OqsxKey κ where
  keytype := alg.primitive
  qsCtx := alg.qsCtx
  evpInfo := alg.evpInfo
  numkeys := 2
  reverseShare := alg.reversed
  privkeylen := sizeOfUint32 + alg.qsCtx.lengthSecretKey + alg.evpInfo.lengthPrivateKey
  pubkeylen := sizeOfUint32 + alg.qsCtx.lengthPublicKey + alg.evpInfo.lengthPublicKey
  compPrivkey := privs
  compPubkey := pubs
  classicalPkey := pkey
  privkey := some privkey
  pubkey := some pubkey

section Hybrid

variable {alg : Algorithm} {pubs privs : ℕ → Option ℕ} {pkey : Option κ} {pubkey privkey : Bytes}

theorem hybridKey_withClassicalPkey (k : Option κ) :
    { hybridKey alg pubs privs pkey pubkey privkey with classicalPkey := k } =
      hybridKey alg pubs privs k pubkey privkey := rfl

theorem hybridKey_keytype : (hybridKey alg pubs privs pkey pubkey privkey).keytype = alg.primitive := rfl

theorem hybridKey_numkeys : (hybridKey alg pubs privs pkey pubkey privkey).numkeys = 2 := rfl

theorem hybridKey_evpInfo : (hybridKey alg pubs privs pkey pubkey privkey).evpInfo = alg.evpInfo := rfl

theorem hybridKey_reversed : (hybridKey alg pubs privs pkey pubkey privkey).reversed = alg.reversed := by
  simp only [OqsxKey.reversed, hybridKey, Algorithm.reversed, ← Bool.and_assoc, Bool.and_self]

theorem allocated_new (hybrid : alg.primitive.isHybrid) :
    ((oqsxKeyNew alg : OqsxKey κ).allocateKeymaterial false).allocateKeymaterial true =
      hybridKey alg (fun _ => none) (fun _ => none) none
        (List.replicate (sizeOfUint32 + alg.qsCtx.lengthPublicKey + alg.evpInfo.lengthPublicKey) 0)
        (List.replicate
          (sizeOfUint32 + alg.qsCtx.lengthSecretKey + alg.evpInfo.lengthPrivateKey + sizeOfUint32) 0) := by
  obtain ⟨primitive, qsCtx, evpInfo, reverseShare⟩ := alg
  cases primitive <;> first | rfl | cases hybrid

theorem hybridKey_storePublic {off : ℕ} {data : Bytes} {key : OqsxKey κ}
    (stored : (hybridKey alg pubs privs pkey pubkey privkey).storePublic (some off) data = some key) :
    key = hybridKey alg pubs privs pkey (write pubkey off data) privkey := by
  obtain ⟨after, stored, same⟩ := Option.bind_eq_some_iff.mp stored
  obtain ⟨-, rfl⟩ := store_eq_some.mp stored
  cases same
  rfl

theorem hybridKey_storePrivate {off : ℕ} {data : Bytes} {key : OqsxKey κ}
    (stored : (hybridKey alg pubs privs pkey pubkey privkey).storePrivate (some off) data = some key) :
    key = hybridKey alg pubs privs pkey pubkey (write privkey off data) := by
  obtain ⟨after, stored, same⟩ := Option.bind_eq_some_iff.mp stored
  obtain ⟨-, rfl⟩ := store_eq_some.mp stored
  cases same
  rfl

def classicalAt (buf : Bytes) (off : ℕ) (data : Bytes) : Bytes :=
  write (write buf off data) 0 (encodeUint32 data.length)

theorem hybridKey_encodeLengths {publen privlen : ℕ} {key : OqsxKey κ}
    (encoded : (hybridKey alg pubs privs pkey pubkey privkey).encodeLengths publen privlen = some key) :
    key = hybridKey alg pubs privs pkey (write pubkey 0 (encodeUint32 publen))
      (write privkey 0 (encodeUint32 privlen)) := by
  obtain ⟨first, storedPublic, storedPrivate⟩ := Option.bind_eq_some_iff.mp encoded
  cases hybridKey_storePublic storedPublic
  exact hybridKey_storePrivate storedPrivate

theorem hybridKey_storeClassical {off off' : ℕ} {publicKey privateKey : Bytes} {key : OqsxKey κ}
    (stored : (hybridKey alg pubs privs pkey pubkey privkey).storeClassical (some off) (some off')
      publicKey privateKey = some key) :
    key = hybridKey alg pubs privs pkey (classicalAt pubkey off publicKey)
      (classicalAt privkey off' privateKey) := by
  obtain ⟨first, storedPublic, stored⟩ := Option.bind_eq_some_iff.mp stored
  cases hybridKey_storePublic storedPublic
  obtain ⟨second, storedPrivate, encoded⟩ := Option.bind_eq_some_iff.mp stored
  cases hybridKey_storePrivate storedPrivate
  exact hybridKey_encodeLengths encoded

variable {oqs : Liboqs γ} {coin : γ}

theorem hybridKey_genOqs {off off' : ℕ} {key : OqsxKey κ}
    (generated : oqsxKeyGenOqs oqs (hybridKey alg pubs privs pkey pubkey privkey) coin = some (0, key))
    (publicPointer : pubs (if alg.reversed then 0 else 1) = some off)
    (privatePointer : privs (if alg.reversed then 0 else 1) = some off') :
    ∃ pk sk, oqs.keypair coin = some (pk, sk) ∧
      key = hybridKey alg pubs privs pkey (write pubkey off pk) (write privkey off' sk) := by
  unfold oqsxKeyGenOqs at generated
  split at generated
  · injection generated with same
    injection same with code
    cases code
  · rename_i pk sk made
    have slot (pub priv : Bytes) :
        (hybridKey alg pubs privs pkey pub priv).idxPq = if alg.reversed then 0 else 1 := by
      rw [OqsxKey.idxPq, hybridKey_reversed]
      rfl
    obtain ⟨first, storedPublic, generated⟩ := Option.bind_eq_some_iff.mp generated
    rw [show (hybridKey alg pubs privs pkey pubkey privkey).compPubkey = pubs from rfl, slot, publicPointer]
      at storedPublic
    cases hybridKey_storePublic storedPublic
    obtain ⟨second, storedPrivate, same⟩ := Option.bind_eq_some_iff.mp generated
    rw [show (hybridKey alg pubs privs pkey (write pubkey off pk) privkey).compPrivkey = privs from rfl, slot,
      privatePointer] at storedPrivate
    cases hybridKey_storePrivate storedPrivate
    cases same
    exact ⟨pk, sk, made, rfl⟩

end Hybrid

structure Apart (classicalOff pqOff classicLen qsLen len : ℕ) : Prop where
  classicalBehind : sizeOfUint32 ≤ classicalOff
  pqBehind : sizeOfUint32 ≤ pqOff
  classicalInside : classicalOff + classicLen ≤ len
  pqInside : pqOff + qsLen ≤ len
  disjoint : classicalOff + classicLen ≤ pqOff ∨ pqOff + qsLen ≤ classicalOff

def filled (buf : Bytes) (classicalOff : ℕ) (classical : Bytes) (pqOff : ℕ) (pq : Bytes) : Bytes :=
  write (classicalAt buf classicalOff classical) pqOff pq

section Filled

variable {buf classical pq : Bytes} {classicalOff pqOff classicLen : ℕ}
  (apart : Apart classicalOff pqOff classicLen pq.length buf.length) (fits : classical.length ≤ classicLen)

include apart fits

theorem stored_length : (write buf classicalOff classical).length = buf.length := by
  apply write_length
  have := apart.classicalInside
  omega

theorem classicalAt_length : (classicalAt buf classicalOff classical).length = buf.length := by
  have front : sizeOfUint32 = 4 := rfl
  have behind := apart.classicalBehind
  have inside := apart.classicalInside
  have stored := stored_length apart fits
  rw [classicalAt, write_length (by rw [encodeUint32_length, stored]; omega), stored]

theorem filled_length : (filled buf classicalOff classical pqOff pq).length = buf.length := by
  have before := classicalAt_length apart fits
  have inside := apart.pqInside
  rw [filled, write_length (by omega), before]

theorem read_filled_pq : read (filled buf classicalOff classical pqOff pq) pqOff pq.length = pq := by
  have before := classicalAt_length apart fits
  have inside := apart.pqInside
  rw [filled, read_write (by omega)]

theorem read_filled_elsewhere {off n : ℕ} (elsewhere : off + n ≤ pqOff ∨ pqOff + pq.length ≤ off) :
    read (filled buf classicalOff classical pqOff pq) off n =
      read (classicalAt buf classicalOff classical) off n := by
  have before := classicalAt_length apart fits
  have inside := apart.pqInside
  rcases elsewhere with earlier | later
  · exact read_write_before earlier (by omega)
  · exact read_write_after later (by omega)

theorem read_filled_length :
    read (filled buf classicalOff classical pqOff pq) 0 sizeOfUint32 = encodeUint32 classical.length := by
  have front : sizeOfUint32 = 4 := rfl
  rw [read_filled_elsewhere apart fits (Or.inl (by have := apart.pqBehind; omega))]
  exact read_write (Nat.zero_le _)

theorem read_filled_classical :
    read (filled buf classicalOff classical pqOff pq) classicalOff classicLen =
      classical ++ read buf (classicalOff + classical.length) (classicLen - classical.length) := by
  have front : sizeOfUint32 = 4 := rfl
  have behind := apart.classicalBehind
  have inside := apart.classicalInside
  rw [read_filled_elsewhere apart fits apart.disjoint, classicalAt,
    read_write_after (by rw [encodeUint32_length]; omega) (Nat.zero_le _), read_write_longer fits (by omega)]

end Filled

section Consecutive

variable {buf classical pq : Bytes}

theorem consecutive_apart (room : sizeOfUint32 + classical.length + pq.length ≤ buf.length) :
    Apart sizeOfUint32 (sizeOfUint32 + classical.length) classical.length pq.length buf.length :=
  ⟨le_rfl, Nat.le_add_right _ _, by omega, room, .inl le_rfl⟩

theorem read_filled_consecutive (room : sizeOfUint32 + classical.length + pq.length ≤ buf.length) :
    read (filled buf sizeOfUint32 classical (sizeOfUint32 + classical.length) pq) 0
      (sizeOfUint32 + classical.length + pq.length) = encodeUint32 classical.length ++ (classical ++ pq) := by
  have apart := consecutive_apart room
  have length := read_filled_length apart le_rfl
  have first := read_filled_classical apart le_rfl
  have second := read_filled_pq apart le_rfl
  have nothing : read buf (sizeOfUint32 + classical.length) 0 = [] := List.take_zero
  rw [Nat.sub_self, nothing, List.append_nil] at first
  rw [read_add, read_add, Nat.zero_add, Nat.zero_add, length, first, second, List.append_assoc]

theorem filled_consecutive (room : sizeOfUint32 + classical.length + pq.length ≤ buf.length) :
    ∃ rest, filled buf sizeOfUint32 classical (sizeOfUint32 + classical.length) pq =
      encodeUint32 classical.length ++ (classical ++ (pq ++ rest)) := by
  have whole := filled_length (consecutive_apart room) le_rfl
  have all : read (filled buf sizeOfUint32 classical (sizeOfUint32 + classical.length) pq) 0
      (sizeOfUint32 + classical.length + pq.length +
        (buf.length - (sizeOfUint32 + classical.length + pq.length))) =
          filled buf sizeOfUint32 classical (sizeOfUint32 + classical.length) pq := read_self (by omega)
  rw [read_add, read_filled_consecutive room, List.append_assoc, List.append_assoc] at all
  exact ⟨_, all.symm⟩

end Consecutive

def classicalOffset (reversed : Bool) (qsLen : ℕ) : ℕ := sizeOfUint32 + if reversed then qsLen else 0

def pqOffset (reversed : Bool) (classicLen : ℕ) : ℕ := sizeOfUint32 + if reversed then 0 else classicLen

theorem offsets_apart {reversed : Bool} {qsLen classicLen len : ℕ}
    (room : sizeOfUint32 + qsLen + classicLen ≤ len) :
    Apart (classicalOffset reversed qsLen) (pqOffset reversed classicLen) classicLen qsLen len := by
  cases reversed <;>
    constructor <;> simp only [classicalOffset, pqOffset, Bool.false_eq_true, if_true, if_false] <;> omega

theorem componentOffsets_classical (reversed : Bool) (qsLen classicLen : ℕ) :
    OqsxKey.componentOffsets reversed qsLen classicLen (if reversed then 1 else 0) =
      some (classicalOffset reversed qsLen) := by
  cases reversed <;> rfl

theorem componentOffsets_pq (reversed : Bool) (qsLen classicLen : ℕ) :
    OqsxKey.componentOffsets reversed qsLen classicLen (if reversed then 0 else 1) =
      some (pqOffset reversed classicLen) := by
  cases reversed <;> rfl

def kemKey (alg : Algorithm) (pkey : Option κ) (pubkey privkey : Bytes) : OqsxKey κ :=
  hybridKey alg
    (OqsxKey.componentOffsets alg.reversed alg.qsCtx.lengthPublicKey alg.evpInfo.lengthPublicKey)
    (OqsxKey.componentOffsets alg.reversed alg.qsCtx.lengthSecretKey alg.evpInfo.lengthPrivateKey)
    pkey pubkey privkey

/-- The buffers of a key of a hybrid KEM, whose fresh bytes are zero. -/
def kemPubkey (alg : Algorithm) (classical pq : Bytes) : Bytes :=
  filled (List.replicate (sizeOfUint32 + alg.qsCtx.lengthPublicKey + alg.evpInfo.lengthPublicKey) 0)
    (classicalOffset alg.reversed alg.qsCtx.lengthPublicKey) classical
    (pqOffset alg.reversed alg.evpInfo.lengthPublicKey) pq

def kemPrivkey (alg : Algorithm) (classical pq : Bytes) : Bytes :=
  filled (List.replicate (sizeOfUint32 + alg.qsCtx.lengthSecretKey + alg.evpInfo.lengthPrivateKey +
      sizeOfUint32) 0)
    (classicalOffset alg.reversed alg.qsCtx.lengthSecretKey) classical
    (pqOffset alg.reversed alg.evpInfo.lengthPrivateKey) pq

section Exchange

variable {alg : Algorithm} {pubs privs : ℕ → Option ℕ} {pkey : Option κ} {pubkey privkey : Bytes}

theorem hybridKey_compSetOffsets {fixed : Bool} {greatest qsLen n : ℕ} {buf : Bytes}
    (first : OqsxKey.classicLen fixed greatest buf = some n) :
    (hybridKey alg pubs privs pkey pubkey privkey).compSetOffsets fixed greatest qsLen (some buf) =
      some (OqsxKey.componentOffsets alg.reversed qsLen n) := by
  rw [OqsxKey.compSetOffsets, first, hybridKey_reversed, Option.map_some]

theorem hybridKey_setComposites {fixed : Bool} {m n : ℕ}
    (publicLen : OqsxKey.classicLen fixed alg.evpInfo.lengthPublicKey pubkey = some m)
    (privateLen : OqsxKey.classicLen fixed alg.evpInfo.lengthPrivateKey privkey = some n) :
    (hybridKey alg pubs privs pkey pubkey privkey).setComposites fixed =
      some (hybridKey alg (OqsxKey.componentOffsets alg.reversed alg.qsCtx.lengthPublicKey m)
        (OqsxKey.componentOffsets alg.reversed alg.qsCtx.lengthSecretKey n) pkey pubkey privkey) := by
  have two : (hybridKey alg pubs privs pkey pubkey privkey).numkeys ≠ 1 := (by decide : (2 : ℕ) ≠ 1)
  rw [OqsxKey.setComposites, if_neg two]
  apply Option.bind_eq_some_iff.mpr ⟨_, hybridKey_compSetOffsets privateLen, _⟩
  exact Option.bind_eq_some_iff.mpr ⟨_, hybridKey_compSetOffsets publicLen, rfl⟩

theorem hybridKey_setComposites_fixed :
    (hybridKey alg pubs privs pkey pubkey privkey).setComposites true =
      some (kemKey alg pkey pubkey privkey) :=
  hybridKey_setComposites rfl rfl

theorem kemKey_idxClassic : (kemKey alg pkey pubkey privkey).idxClassic = if alg.reversed then 1 else 0 := by
  rw [OqsxKey.idxClassic, kemKey, hybridKey_reversed]
  rfl

theorem kemKey_compPubkey_classical :
    (kemKey alg pkey pubkey privkey).compPubkey (if alg.reversed then 1 else 0) =
      some (classicalOffset alg.reversed alg.qsCtx.lengthPublicKey) := componentOffsets_classical _ _ _

theorem kemKey_compPrivkey_classical :
    (kemKey alg pkey pubkey privkey).compPrivkey (if alg.reversed then 1 else 0) =
      some (classicalOffset alg.reversed alg.qsCtx.lengthSecretKey) := componentOffsets_classical _ _ _

theorem kemKey_compPubkey_pq :
    (kemKey alg pkey pubkey privkey).compPubkey (if alg.reversed then 0 else 1) =
      some (pqOffset alg.reversed alg.evpInfo.lengthPublicKey) := componentOffsets_pq _ _ _

theorem kemKey_compPrivkey_pq :
    (kemKey alg pkey pubkey privkey).compPrivkey (if alg.reversed then 0 else 1) =
      some (pqOffset alg.reversed alg.evpInfo.lengthPrivateKey) := componentOffsets_pq _ _ _

variable {evp : Evp κ γ} {oqs : Liboqs γ}

theorem KeyType.isHybrid_of_isHybKem {keytype : KeyType} (hyb : keytype.isHybKem) : keytype.isHybrid := by
  rw [KeyType.isHybrid, hyb, Bool.true_or]

theorem genkey_returned {coins : γ × γ} {key : OqsxKey κ}
    (generated : oqsxGenkey evp oqs alg coins = some (some key)) :
    oqsxKeyGen evp oqs (oqsxKeyNew alg) coins = some (0, key) := by
  obtain ⟨⟨ret, made⟩, keyGen, returned⟩ := Option.bind_eq_some_iff.mp generated
  obtain ⟨rfl, rfl⟩ : ret = 0 ∧ made = key := by
    simpa only [Option.pure_def, Option.some.injEq, Option.ite_none_right_eq_some] using returned
  exact keyGen

theorem keyGen_hybKem (hyb : alg.primitive.isHybKem) (coins : γ × γ) :
    oqsxKeyGen evp oqs (oqsxKeyNew alg) coins =
      (oqsxKeyGenEvpKeyKem evp (kemKey alg none
        (List.replicate (sizeOfUint32 + alg.qsCtx.lengthPublicKey + alg.evpInfo.lengthPublicKey) 0)
        (List.replicate (sizeOfUint32 + alg.qsCtx.lengthSecretKey + alg.evpInfo.lengthPrivateKey + sizeOfUint32)
          0)) coins.1).bind
        (afterEvpKey fun key pkey => oqsxKeyGenOqs oqs { key with classicalPkey := some pkey } coins.2) := by
  rw [oqsxKeyGen, allocated_new (KeyType.isHybrid_of_isHybKem hyb)]
  rw [hybridKey_keytype, if_pos hyb,
    withComposites, hybridKey_setComposites_fixed]

/-- A returned key is laid out, even where the classical key pair could not be generated. -/
theorem genkey_hybKem_laidOut (hyb : alg.primitive.isHybKem) {coins : γ × γ} {key : OqsxKey κ}
    (generated : oqsxGenkey evp oqs alg coins = some (some key)) :
    ∃ pubkey privkey, key = kemKey alg key.classicalPkey pubkey privkey ∧
      pubkey.length = sizeOfUint32 + alg.qsCtx.lengthPublicKey + alg.evpInfo.lengthPublicKey ∧
      privkey.length = sizeOfUint32 + alg.qsCtx.lengthSecretKey + alg.evpInfo.lengthPrivateKey + sizeOfUint32 := by
  have keyGen := genkey_returned generated
  rw [keyGen_hybKem hyb] at keyGen
  obtain ⟨⟨made, pkey⟩, classicalPair, keyGen⟩ := Option.bind_eq_some_iff.mp keyGen
  have keptMade := genEvpKey_kept classicalPair
  have kept : (kemKey alg pkey
      (List.replicate (sizeOfUint32 + alg.qsCtx.lengthPublicKey + alg.evpInfo.lengthPublicKey) 0)
      (List.replicate (sizeOfUint32 + alg.qsCtx.lengthSecretKey + alg.evpInfo.lengthPrivateKey + sizeOfUint32)
        0)).Kept key := by
    cases pkey with
    | none =>
      cases keyGen
      exact keptMade
    | some k =>
      have rest : OqsxKey.Kept { made with classicalPkey := some k } key := genOqs_kept keyGen
      exact (keptMade.withClassicalPkey (some k)).trans rest
  have same := kept.same
  obtain ⟨pubkey, isPubkey, sized⟩ := Option.map_eq_some_iff.mp kept.pubkey
  obtain ⟨privkey, isPrivkey, sizedPrivkey⟩ := Option.map_eq_some_iff.mp kept.privkey
  rw [isPubkey, isPrivkey] at same
  refine ⟨pubkey, privkey, ?_, sized.trans List.length_replicate, sizedPrivkey.trans List.length_replicate⟩
  rw [kept.classicalPkey]
  exact same

theorem genkey_hybKem (hyb : alg.primitive.isHybKem) {coins : γ × γ} {key : OqsxKey κ} {k : κ}
    (generated : oqsxGenkey evp oqs alg coins = some (some key)) (classical : key.classicalPkey = some k) :
    ∃ pk sk, evp.keygen coins.1 = some k ∧ oqs.keypair coins.2 = some (pk, sk) ∧ evp.Fits alg.evpInfo k ∧
      key = kemKey alg (some k) (kemPubkey alg (evp.publicKey alg.evpInfo k) pk)
        (kemPrivkey alg (evp.privateKey alg.evpInfo k) sk) := by
  have keyGen := genkey_returned generated
  rw [keyGen_hybKem hyb] at keyGen
  obtain ⟨⟨made, pkey⟩, classicalPair, keyGen⟩ := Option.bind_eq_some_iff.mp keyGen
  rw [oqsxKeyGenEvpKeyKem, kemKey_idxClassic] at classicalPair
  cases pkey with
  | none =>
    cases keyGen
    rw [(genEvpKey_kept classicalPair).classicalPkey] at classical
    cases classical
  | some m =>
    obtain ⟨keygen, fits, stored⟩ := genEvpKey_stores classicalPair
    rw [kemKey_compPubkey_classical, kemKey_compPrivkey_classical] at stored
    cases hybridKey_storeClassical stored
    obtain ⟨pk, sk, keypair, rfl⟩ := hybridKey_genOqs keyGen (componentOffsets_pq _ _ _)
      (componentOffsets_pq _ _ _)
    cases classical
    exact ⟨pk, sk, keygen, keypair, fits, rfl⟩

end Exchange

theorem afterEvpKey_some (gen : OqsxKey κ → κ → Option (ℤ × OqsxKey κ)) (key : OqsxKey κ) (k : κ) :
    afterEvpKey gen (key, some k) = gen key k := rfl

theorem withComposites_eq {key composed : OqsxKey κ} {fixed : Bool}
    (pointed : key.setComposites fixed = some composed)
    (gen : OqsxKey κ → Option (ℤ × OqsxKey κ)) : withComposites key fixed gen = gen composed := by
  rw [withComposites, pointed]

theorem decodeUint32_classicalAt {buf data : Bytes} {off : ℕ} (small : data.length < 2 ^ 32) :
    decodeUint32 (classicalAt buf off data) = data.length := by
  rw [classicalAt, write, List.take_zero, List.nil_append]
  exact decodeUint32_encodeUint32 small _

/-- The buffers of a key of a hybrid signature algorithm: the components follow each other without a gap. -/
def sigPubkey (alg : Algorithm) (classical pq : Bytes) : Bytes :=
  filled (List.replicate (sizeOfUint32 + alg.qsCtx.lengthPublicKey + alg.evpInfo.lengthPublicKey) 0)
    sizeOfUint32 classical (sizeOfUint32 + classical.length) pq

def sigPrivkey (alg : Algorithm) (classical pq : Bytes) : Bytes :=
  filled (List.replicate (sizeOfUint32 + alg.qsCtx.lengthSecretKey + alg.evpInfo.lengthPrivateKey +
      sizeOfUint32) 0)
    sizeOfUint32 classical (sizeOfUint32 + classical.length) pq

def sigKey (alg : Algorithm) (pkey : Option κ) (classicalPublic classicalPrivate pk sk : Bytes) : OqsxKey κ :=
  hybridKey alg (OqsxKey.componentOffsets false alg.qsCtx.lengthPublicKey classicalPublic.length)
    (OqsxKey.componentOffsets false alg.qsCtx.lengthSecretKey classicalPrivate.length) pkey
    (sigPubkey alg classicalPublic pk) (sigPrivkey alg classicalPrivate sk)

section HybridSignature

variable {alg : Algorithm} {evp : Evp κ γ} {oqs : Liboqs γ}

theorem KeyType.isHybKem_hybSig {keytype : KeyType} (sig : keytype = .hybSig) :
    keytype.isHybKem = false := by
  rw [sig]
  rfl

theorem OqsxKey.classicLen_of_starts {greatest n : ℕ} {buf : Bytes} (starts : decodeUint32 buf = n)
    (fits : n ≤ greatest) : OqsxKey.classicLen false greatest buf = some n := by
  rw [OqsxKey.classicLen, if_neg Bool.false_ne_true, starts, if_neg (not_lt.mpr fits)]

theorem classicLen_classicalAt {greatest off : ℕ} {buf data : Bytes} (small : greatest < 2 ^ 32)
    (fits : data.length ≤ greatest) :
    OqsxKey.classicLen false greatest (classicalAt buf off data) = some data.length :=
  OqsxKey.classicLen_of_starts (decodeUint32_classicalAt (fits.trans_lt small)) fits

theorem Algorithm.not_reversed (sig : alg.primitive = .hybSig) : alg.reversed = false := by
  rw [Algorithm.reversed, sig]
  rfl

theorem setComposites_of_storeClassical (smallPublic : alg.evpInfo.lengthPublicKey < 2 ^ 32)
    (smallPrivate : alg.evpInfo.lengthPrivateKey < 2 ^ 32) {pubs privs : ℕ → Option ℕ} {pkey : Option κ}
    {pubkey privkey publicKey privateKey : Bytes} {off off' : ℕ} {key : OqsxKey κ}
    (stored : (hybridKey alg pubs privs pkey pubkey privkey).storeClassical (some off) (some off')
      publicKey privateKey = some key)
    (publicFits : publicKey.length ≤ alg.evpInfo.lengthPublicKey)
    (privateFits : privateKey.length ≤ alg.evpInfo.lengthPrivateKey) :
    key.setComposites false = some (hybridKey alg
      (OqsxKey.componentOffsets alg.reversed alg.qsCtx.lengthPublicKey publicKey.length)
      (OqsxKey.componentOffsets alg.reversed alg.qsCtx.lengthSecretKey privateKey.length) pkey
      (classicalAt pubkey off publicKey) (classicalAt privkey off' privateKey)) := by
  rw [hybridKey_storeClassical stored]
  exact hybridKey_setComposites (classicLen_classicalAt smallPublic publicFits)
    (classicLen_classicalAt smallPrivate privateFits)

theorem keyGen_hybSig (sig : alg.primitive = .hybSig) (coins : γ × γ) :
    oqsxKeyGen evp oqs (oqsxKeyNew alg) coins =
      (oqsxKeyGenEvpKeySig evp (hybridKey alg (fun _ => none) (fun _ => none) none
        (List.replicate (sizeOfUint32 + alg.qsCtx.lengthPublicKey + alg.evpInfo.lengthPublicKey) 0)
        (List.replicate (sizeOfUint32 + alg.qsCtx.lengthSecretKey + alg.evpInfo.lengthPrivateKey + sizeOfUint32)
          0)) coins.1).bind
        (afterEvpKey fun key pkey => withComposites key false fun key =>
          oqsxKeyGenOqs oqs { key with classicalPkey := some pkey } coins.2) := by
  have hybrid : alg.primitive.isHybrid := by
    rw [sig]
    rfl
  rw [oqsxKeyGen, allocated_new hybrid]
  rw [hybridKey_keytype, KeyType.isHybKem_hybSig sig, if_neg Bool.false_ne_true, if_pos sig]

theorem genkey_hybSig (sig : alg.primitive = .hybSig) (smallPublic : alg.evpInfo.lengthPublicKey < 2 ^ 32)
    (smallPrivate : alg.evpInfo.lengthPrivateKey < 2 ^ 32) {coins : γ × γ} {key : OqsxKey κ} {k : κ}
    (generated : oqsxGenkey evp oqs alg coins = some (some key)) (classical : key.classicalPkey = some k) :
    ∃ pk sk, evp.keygen coins.1 = some k ∧ oqs.keypair coins.2 = some (pk, sk) ∧ evp.Fits alg.evpInfo k ∧
      key = sigKey alg (some k) (evp.publicKey alg.evpInfo k) (evp.privateKey alg.evpInfo k) pk sk := by
  have keyGen := genkey_returned generated
  rw [keyGen_hybSig sig] at keyGen
  obtain ⟨⟨made, pkey⟩, classicalPair, keyGen⟩ := Option.bind_eq_some_iff.mp keyGen
  cases pkey with
  | none =>
    cases keyGen
    rw [(genEvpKey_kept classicalPair).classicalPkey] at classical
    cases classical
  | some m =>
    rw [afterEvpKey_some] at keyGen
    obtain ⟨keygen, fits, stored⟩ := genEvpKey_stores classicalPair
    rw [hybridKey_evpInfo] at fits stored
    have pointed := setComposites_of_storeClassical smallPublic smallPrivate stored fits.publicKey
      fits.privateKey
    rw [withComposites_eq pointed, hybridKey_withClassicalPkey] at keyGen
    obtain ⟨pk, sk, keypair, rfl⟩ := hybridKey_genOqs keyGen (componentOffsets_pq _ _ _)
      (componentOffsets_pq _ _ _)
    cases classical
    rw [Algorithm.not_reversed sig]
    exact ⟨pk, sk, keygen, keypair, fits, by rw [sigKey, sigPubkey, sigPrivkey, filled, filled]; rfl⟩

end HybridSignature

end PqcLab.Oqs
