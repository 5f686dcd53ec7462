import PqcLab.Oqs.Certificate

/-! The private keys that key files hold. -/

namespace PqcLab.Oqs

open Buffer

variable {κ γ : Type}

/-- `oqsx_pki_priv_to_der`, for the bytes in the octet string; `none` inside is an error. -/
def oqsxPkiPrivToDer (key : OqsxKey κ) : Option (Option Bytes) :=
  match key.privkey, key.pubkey with
  | some privkey, some _ =>
    let actualPrivkeyLen := decodeUint32 privkey
    if key.numkeys > 1 ∧ (actualPrivkeyLen > key.evpInfo.lengthPrivateKey ∨
        actualPrivkeyLen > key.privkeylen - sizeOfUint32 - key.qsCtx.lengthSecretKey) then some none
    else do
      let privkeylen :=
        if key.numkeys > 1 then key.privkeylen - (key.evpInfo.lengthPrivateKey - actualPrivkeyLen)
        else key.privkeylen
      let privatePart ← Buffer.load privkey 0 privkeylen
      let publicPart ← OqsxKey.load key.pubkey
        (key.compPubkey (if key.reverseShare then 0 else key.numkeys - 1)) key.qsCtx.lengthPublicKey
      return some (privatePart ++ publicPart)
  | _, _ => some none

section Import

variable (evp : Evp κ γ)

def Evp.importPrivateKey (info : EvpInfo) (encoded : Bytes) : Option κ :=
  if info.rawKeySupport then evp.newRawPrivateKey encoded else evp.d2iPrivateKey encoded

def Evp.exportPublicKey (info : EvpInfo) (pkey : κ) : Bytes :=
  if info.rawKeySupport then evp.getRawPublicKey pkey else evp.i2dPublicKey pkey

/-- `oqsx_key_recreate_classickey` of a private key, which stores the public key again; `none` inside is an
error. -/
def oqsxKeyRecreateClassickeyPrivate (key : OqsxKey κ) : Option (Option (OqsxKey κ)) :=
  if key.numkeys = 2 then do
    let classicalPrivkeyLen := decodeUint32 (← key.privkey)
    if classicalPrivkeyLen > key.evpInfo.lengthPrivateKey then return none
    let encPrivkey ← OqsxKey.load key.privkey (key.compPrivkey key.idxClassic) classicalPrivkeyLen
    match evp.importPrivateKey key.evpInfo encPrivkey with
    | none => return none
    | some pkey =>
      let encoded := evp.exportPublicKey key.evpInfo pkey
      -- raw keys are written only if they have the right length
      if key.evpInfo.rawKeySupport ∧ encoded.length ≠ key.evpInfo.lengthPublicKey then return none
      let key ← key.storePublic (key.compPubkey key.idxClassic) encoded
      return if encoded.length = key.evpInfo.lengthPublicKey then some { key with classicalPkey := some pkey }
        else none
  else some (some key)

/-- `oqsx_key_from_pkcs8` for the identifier of this algorithm; `none` inside is an error. -/
def oqsxKeyFromPkcs8 (alg : Algorithm) (data : Bytes) : Option (Option (OqsxKey κ)) :=
  let key : OqsxKey κ := oqsxKeyNew alg
  let expectedPqPrivkeyLen := key.qsCtx.lengthSecretKey + key.qsCtx.lengthPublicKey
  let spaceForClassicalPrivkey := data.length - expectedPqPrivkeyLen - sizeOfUint32
  if key.numkeys = 2 ∧ (data.length ≤ sizeOfUint32 + expectedPqPrivkeyLen ∨
      spaceForClassicalPrivkey > key.evpInfo.lengthPrivateKey ∨
      decodeUint32 data ≠ spaceForClassicalPrivkey) then some none
  else
    let actualprivkeylen :=
      if key.numkeys = 2 then key.privkeylen - (key.evpInfo.lengthPrivateKey - decodeUint32 data)
      else key.privkeylen
    if actualprivkeylen + key.qsCtx.lengthPublicKey ≠ data.length then some none
    else do
      let key ← ((key.allocateKeymaterial true).allocateKeymaterial false).storePrivate (some 0)
        (data.take actualprivkeylen)
      let key ←
        if key.numkeys = 2 then do
          let key ← key.storePublic (some 0) (encodeUint32 key.evpInfo.lengthPublicKey)
          key.storePublic
            (some (sizeOfUint32 + if key.reverseShare then 0 else key.evpInfo.lengthPublicKey))
            (data.drop actualprivkeylen)
        else key.storePublic (some 0) (data.drop actualprivkeylen)
      match key.setComposites key.keytype.isHybKem with
      | none => return none
      | some key => oqsxKeyRecreateClassickeyPrivate evp key

end Import

section Written

variable {alg : Algorithm} {evp : Evp κ γ} {oqs : Liboqs γ} {pkey : Option κ}
  {classicalPublic classicalPrivate pk sk : Bytes}

def keyFile (classicalPrivate pk sk : Bytes) : Bytes :=
  encodeUint32 classicalPrivate.length ++ (classicalPrivate ++ sk) ++ pk

theorem sigPrivkey_framed (fits : classicalPrivate.length ≤ alg.evpInfo.lengthPrivateKey)
    (sized : sk.length = alg.qsCtx.lengthSecretKey) :
    ∃ rest, sigPrivkey alg classicalPrivate sk =
      encodeUint32 classicalPrivate.length ++ (classicalPrivate ++ (sk ++ rest)) :=
  filled_consecutive (by rw [List.length_replicate]; omega)

theorem oqsxPkiPrivToDer_sigKey (sig : alg.primitive = .hybSig)
    (small : alg.evpInfo.lengthPrivateKey < 2 ^ 32)
    (publicFits : classicalPublic.length ≤ alg.evpInfo.lengthPublicKey)
    (privateFits : classicalPrivate.length ≤ alg.evpInfo.lengthPrivateKey)
    (publicLength : pk.length = alg.qsCtx.lengthPublicKey)
    (secretLength : sk.length = alg.qsCtx.lengthSecretKey) :
    oqsxPkiPrivToDer (sigKey alg pkey classicalPublic classicalPrivate pk sk) =
      some (some (keyFile classicalPrivate pk sk)) := by
  have front : sizeOfUint32 = 4 := rfl
  have publicPart := (sigPubkey_form publicFits publicLength).load_pq
  have stored : (sigKey alg pkey classicalPublic classicalPrivate pk sk).privkey =
      some (sigPrivkey alg classicalPrivate sk) := rfl
  have present : (sigKey alg pkey classicalPublic classicalPrivate pk sk).pubkey =
      some (sigPubkey alg classicalPublic pk) := rfl
  have forward : (sigKey alg pkey classicalPublic classicalPrivate pk sk).reverseShare = false :=
    Algorithm.not_reversed sig
  have room : (sigKey alg pkey classicalPublic classicalPrivate pk sk).privkeylen =
      sizeOfUint32 + alg.qsCtx.lengthSecretKey + alg.evpInfo.lengthPrivateKey := rfl
  have two : (sigKey alg pkey classicalPublic classicalPrivate pk sk).numkeys = 2 := rfl
  have info : (sigKey alg pkey classicalPublic classicalPrivate pk sk).evpInfo = alg.evpInfo := rfl
  have qs : (sigKey alg pkey classicalPublic classicalPrivate pk sk).qsCtx = alg.qsCtx := rfl
  have second : (sigKey alg pkey classicalPublic classicalPrivate pk sk).compPubkey 1 =
      OqsxKey.componentOffsets false alg.qsCtx.lengthPublicKey classicalPublic.length 1 := rfl
  obtain ⟨rest, framed⟩ := sigPrivkey_framed privateFits secretLength
  rw [oqsxPkiPrivToDer, stored, present, framed]
  dsimp only
  rw [decodeUint32_framed (privateFits.trans_lt small), two, info, qs, room, forward]
  rw [if_neg (by omega), if_pos (by decide), if_neg Bool.false_ne_true]
  rw [second, publicPart]
  rw [show sizeOfUint32 + alg.qsCtx.lengthSecretKey + alg.evpInfo.lengthPrivateKey -
      (alg.evpInfo.lengthPrivateKey - classicalPrivate.length) =
        sizeOfUint32 + (classicalPrivate.length + sk.length) by omega]
  have privatePart : Buffer.load
      (encodeUint32 classicalPrivate.length ++ (classicalPrivate ++ (sk ++ rest))) 0
      (sizeOfUint32 + (classicalPrivate.length + sk.length)) =
        some (encodeUint32 classicalPrivate.length ++ (classicalPrivate ++ sk)) := by
    apply load_eq_some.mpr
    rw [← List.append_assoc classicalPrivate, ← List.append_assoc]
    have whole : (encodeUint32 classicalPrivate.length ++ (classicalPrivate ++ sk)).length =
        sizeOfUint32 + (classicalPrivate.length + sk.length) := by
      rw [List.length_append, List.length_append, encodeUint32_length, front]
    refine ⟨?_, ?_⟩
    · rw [List.length_append, whole]
      omega
    · rw [read_append_left (by omega), read_self whole]
  rw [privatePart]
  rfl

end Written

section Loaded

variable {alg : Algorithm} {evp : Evp κ γ} {pubs privs : ℕ → Option ℕ} {pkey : Option κ}
  {pubkey privkey data : Bytes} {off n : ℕ}

theorem new_hybSig (sig : alg.primitive = .hybSig) :
    (oqsxKeyNew alg : OqsxKey κ).numkeys = 2 ∧ (oqsxKeyNew alg : OqsxKey κ).qsCtx = alg.qsCtx ∧
      (oqsxKeyNew alg : OqsxKey κ).evpInfo = alg.evpInfo ∧
      (oqsxKeyNew alg : OqsxKey κ).privkeylen =
        sizeOfUint32 + alg.qsCtx.lengthSecretKey + alg.evpInfo.lengthPrivateKey := by
  obtain ⟨primitive, qsCtx, evpInfo, reverseShare⟩ := alg
  cases sig
  exact ⟨rfl, rfl, rfl, rfl⟩

theorem allocated_private (sig : alg.primitive = .hybSig) :
    ((oqsxKeyNew alg : OqsxKey κ).allocateKeymaterial true).allocateKeymaterial false =
      hybridKey alg (fun _ => none) (fun _ => none) none
        (List.replicate (sizeOfUint32 + alg.qsCtx.lengthPublicKey + alg.evpInfo.lengthPublicKey) 0)
        (List.replicate
          (sizeOfUint32 + alg.qsCtx.lengthSecretKey + alg.evpInfo.lengthPrivateKey + sizeOfUint32) 0) := by
  obtain ⟨primitive, qsCtx, evpInfo, reverseShare⟩ := alg
  cases sig
  rfl

theorem storePrivate_hybridKey (room : off + data.length ≤ privkey.length) :
    (hybridKey alg pubs privs pkey pubkey privkey).storePrivate (some off) data =
      some (hybridKey alg pubs privs pkey pubkey (write privkey off data)) :=
  Option.bind_eq_some_iff.mpr ⟨_, store_eq room, rfl⟩

theorem storePublic_hybridKey (room : off + data.length ≤ pubkey.length) :
    (hybridKey alg pubs privs pkey pubkey privkey).storePublic (some off) data =
      some (hybridKey alg pubs privs pkey (write pubkey off data) privkey) :=
  Option.bind_eq_some_iff.mpr ⟨_, store_eq room, rfl⟩

theorem recreate_hybridKey {classical : Bytes} {k : κ} (sig : alg.primitive = .hybSig)
    (starts : decodeUint32 privkey = classical.length)
    (fits : classical.length ≤ alg.evpInfo.lengthPrivateKey)
    (stored : OqsxKey.load (some privkey) (privs 0) classical.length = some classical)
    (taken : evp.importPrivateKey alg.evpInfo classical = some k)
    (exact : (evp.exportPublicKey alg.evpInfo k).length = alg.evpInfo.lengthPublicKey)
    (pointer : pubs 0 = some sizeOfUint32)
    (room : sizeOfUint32 + alg.evpInfo.lengthPublicKey ≤ pubkey.length) :
    oqsxKeyRecreateClassickeyPrivate evp (hybridKey alg pubs privs none pubkey privkey) =
      some (some (hybridKey alg pubs privs (some k)
        (write pubkey sizeOfUint32 (evp.exportPublicKey alg.evpInfo k)) privkey)) := by
  have bytes : (hybridKey alg pubs privs (none : Option κ) pubkey privkey).privkey = some privkey := rfl
  have first : (hybridKey alg pubs privs (none : Option κ) pubkey privkey).idxClassic = 0 := by
    rw [OqsxKey.idxClassic, hybridKey_reversed, Algorithm.not_reversed sig, if_neg Bool.false_ne_true]
  have privatePointer : (hybridKey alg pubs privs (none : Option κ) pubkey privkey).compPrivkey 0 =
      privs 0 := rfl
  have publicPointer : (hybridKey alg pubs privs (none : Option κ) pubkey privkey).compPubkey 0 =
      some sizeOfUint32 := pointer
  have again : (hybridKey alg pubs privs (none : Option κ) pubkey privkey).storePublic (some sizeOfUint32)
      (evp.exportPublicKey alg.evpInfo k) = some (hybridKey alg pubs privs none
        (write pubkey sizeOfUint32 (evp.exportPublicKey alg.evpInfo k)) privkey) :=
    storePublic_hybridKey (by omega)
  rw [oqsxKeyRecreateClassickeyPrivate, if_pos hybridKey_numkeys, first, bytes, hybridKey_evpInfo,
    privatePointer, publicPointer]
  rw [Option.bind_eq_bind, Option.bind_some]
  dsimp only
  rw [starts, if_neg (not_lt.mpr fits), stored]
  rw [Option.bind_some, taken]
  dsimp only
  rw [if_neg (fun short => short.2 exact), again, Option.bind_eq_bind, Option.bind_some, hybridKey_evpInfo,
    if_pos exact]
  rfl

section Contents

variable {classical pk sk : Bytes}

theorem keyFile_inner : (encodeUint32 classical.length ++ (classical ++ sk)).length =
    sizeOfUint32 + (classical.length + sk.length) := by
  rw [List.length_append, List.length_append, encodeUint32_length]
  rfl

theorem keyFile_length : (keyFile classical pk sk).length =
    sizeOfUint32 + (classical.length + sk.length) + pk.length := by
  rw [keyFile, List.length_append, keyFile_inner]

theorem keyFile_take : (keyFile classical pk sk).take (sizeOfUint32 + (classical.length + sk.length)) =
    encodeUint32 classical.length ++ (classical ++ sk) := by
  rw [keyFile, ← keyFile_inner, List.take_left]

theorem keyFile_drop :
    (keyFile classical pk sk).drop (sizeOfUint32 + (classical.length + sk.length)) = pk := by
  rw [keyFile, ← keyFile_inner, List.drop_left]

theorem keyFile_starts (small : classical.length < 2 ^ 32) :
    decodeUint32 (keyFile classical pk sk) = classical.length := by
  rw [keyFile, List.append_assoc]
  exact decodeUint32_encodeUint32 small _

theorem privkey_read (sk zeros : Bytes) (small : classical.length < 2 ^ 32)
    (room : sizeOfUint32 + (classical.length + sk.length) ≤ zeros.length) :
    decodeUint32 (write zeros 0 (encodeUint32 classical.length ++ (classical ++ sk))) = classical.length ∧
      OqsxKey.load (some (write zeros 0 (encodeUint32 classical.length ++ (classical ++ sk))))
        (some sizeOfUint32) classical.length = some classical ∧
      OqsxKey.load (some (write zeros 0 (encodeUint32 classical.length ++ (classical ++ sk))))
        (some (sizeOfUint32 + classical.length)) sk.length = some sk := by
  have inner : (encodeUint32 classical.length ++ (classical ++ sk)).length =
      sizeOfUint32 + (classical.length + sk.length) := keyFile_inner
  have whole : (write zeros 0 (encodeUint32 classical.length ++ (classical ++ sk))).length = zeros.length :=
    write_length (by omega)
  have first : read (write zeros 0 (encodeUint32 classical.length ++ (classical ++ sk))) sizeOfUint32
      classical.length = classical := (read_written (by omega)).trans (read_framed _ _)
  have second : read (write zeros 0 (encodeUint32 classical.length ++ (classical ++ sk)))
      (sizeOfUint32 + classical.length) sk.length = sk :=
    (read_written (by omega)).trans (read_framed_rest _ _)
  refine ⟨?_, load_eq_some.mpr ⟨by omega, first⟩, load_eq_some.mpr ⟨by omega, second⟩⟩
  rw [write, List.take_zero, List.nil_append, List.append_assoc]
  exact decodeUint32_encodeUint32 small _

theorem pubkey_starts (pk zeros : Bytes) (small : n < 2 ^ 32) (room : sizeOfUint32 + n ≤ zeros.length) :
    decodeUint32 (write (write zeros 0 (encodeUint32 n)) (sizeOfUint32 + n) pk) = n := by
  have front : sizeOfUint32 = 4 := rfl
  have header : (write zeros 0 (encodeUint32 n)).length = zeros.length :=
    write_length (by rw [encodeUint32_length]; omega)
  apply decodeUint32_of_read small
  rw [read_write_before (by omega) (by omega)]
  exact read_write (Nat.zero_le _)

end Contents

theorem oqsxKeyFromPkcs8_keyFile {classical pk sk : Bytes} {k : κ} (sig : alg.primitive = .hybSig)
    (smallPublic : alg.evpInfo.lengthPublicKey < 2 ^ 32)
    (smallPrivate : alg.evpInfo.lengthPrivateKey < 2 ^ 32)
    (publicLength : pk.length = alg.qsCtx.lengthPublicKey)
    (secretLength : sk.length = alg.qsCtx.lengthSecretKey)
    (present : classical ≠ []) (fits : classical.length ≤ alg.evpInfo.lengthPrivateKey)
    (taken : evp.importPrivateKey alg.evpInfo classical = some k)
    (exact : (evp.exportPublicKey alg.evpInfo k).length = alg.evpInfo.lengthPublicKey) :
    ∃ pubkey privkey, oqsxKeyFromPkcs8 evp alg (keyFile classical pk sk) =
        some (some (hybridKey alg
          (OqsxKey.componentOffsets false alg.qsCtx.lengthPublicKey alg.evpInfo.lengthPublicKey)
          (OqsxKey.componentOffsets false alg.qsCtx.lengthSecretKey classical.length) (some k) pubkey privkey)) ∧
      OqsxKey.load (some privkey)
        (OqsxKey.componentOffsets false alg.qsCtx.lengthSecretKey classical.length 1)
        alg.qsCtx.lengthSecretKey = some sk := by
  have front : sizeOfUint32 = 4 := rfl
  have positive := List.length_pos_iff.mpr present
  have small : classical.length < 2 ^ 32 := fits.trans_lt smallPrivate
  obtain ⟨two, qs, info, room⟩ : (oqsxKeyNew alg : OqsxKey κ).numkeys = 2 ∧ _ := new_hybSig sig
  have actual : sizeOfUint32 + alg.qsCtx.lengthSecretKey + alg.evpInfo.lengthPrivateKey -
      (alg.evpInfo.lengthPrivateKey - classical.length) = sizeOfUint32 + (classical.length + sk.length) := by
    omega
  rw [oqsxKeyFromPkcs8]
  dsimp only
  rw [two, qs, info, room, keyFile_starts small, keyFile_length]
  rw [if_neg (by omega), if_pos rfl, actual, if_neg (by omega), keyFile_take, keyFile_drop,
    allocated_private sig]
  have roomPublic : (List.replicate (sizeOfUint32 + alg.qsCtx.lengthPublicKey + alg.evpInfo.lengthPublicKey)
      (0 : UInt8)).length = _ := List.length_replicate
  have roomPrivate : (List.replicate (sizeOfUint32 + alg.qsCtx.lengthSecretKey + alg.evpInfo.lengthPrivateKey +
      sizeOfUint32) (0 : UInt8)).length = _ := List.length_replicate
  generalize List.replicate (sizeOfUint32 + alg.qsCtx.lengthPublicKey + alg.evpInfo.lengthPublicKey)
    (0 : UInt8) = zerosPublic at roomPublic ⊢
  generalize List.replicate (sizeOfUint32 + alg.qsCtx.lengthSecretKey + alg.evpInfo.lengthPrivateKey +
    sizeOfUint32) (0 : UInt8) = zerosPrivate at roomPrivate ⊢
  have roomContent :
      0 + (encodeUint32 classical.length ++ (classical ++ sk)).length ≤ zerosPrivate.length := by
    rw [keyFile_inner]
    omega
  have roomHeader : 0 + (encodeUint32 alg.evpInfo.lengthPublicKey).length ≤ zerosPublic.length := by
    rw [encodeUint32_length]
    omega
  have roomHeaded := write_length roomHeader
  have roomPq : sizeOfUint32 + alg.evpInfo.lengthPublicKey + pk.length ≤
      (write zerosPublic 0 (encodeUint32 alg.evpInfo.lengthPublicKey)).length := by omega
  have roomFilled := write_length roomPq
  have forward (pubs privs : ℕ → Option ℕ) (pubkey privkey : Bytes) :
      (hybridKey alg pubs privs (none : Option κ) pubkey privkey).reverseShare = false :=
    Algorithm.not_reversed sig
  obtain ⟨privateStarts, classicalStored, pqStored⟩ := privkey_read sk zerosPrivate small (by omega)
  have publicFirst := OqsxKey.classicLen_of_starts (pubkey_starts pk zerosPublic smallPublic (by omega)) le_rfl
  have privateFirst := OqsxKey.classicLen_of_starts privateStarts fits
  rw [secretLength] at pqStored
  rw [storePrivate_hybridKey roomContent, Option.bind_eq_bind, Option.bind_some, if_pos hybridKey_numkeys,
    hybridKey_evpInfo, storePublic_hybridKey roomHeader, Option.bind_some, forward, if_neg Bool.false_ne_true,
    hybridKey_evpInfo, storePublic_hybridKey roomPq, Option.bind_some, hybridKey_keytype,
    KeyType.isHybKem_hybSig sig, hybridKey_setComposites publicFirst privateFirst, Algorithm.not_reversed sig]
  exact ⟨_, _, recreate_hybridKey sig privateStarts fits classicalStored taken exact rfl (by omega), pqStored⟩

end Loaded

/-- What OpenSSL promises about the private keys that were stored. -/
structure Evp.Restores (evp : Evp κ γ) (info : EvpInfo) : Prop where
  present : ∀ {c k}, evp.keygen c = some k → evp.privateKey info k ≠ []
  restored : ∀ {c k}, evp.keygen c = some k → evp.importPrivateKey info (evp.privateKey info k) = some k
  publicLength : ∀ {c k}, evp.keygen c = some k →
    (evp.exportPublicKey info k).length = info.lengthPublicKey

/-- A key that is read back from its file signs what verifies with its certificate, with no digest named. -/
theorem key_file_signature_verifies {alg : Algorithm} {evp : Evp κ γ} {oqs : Liboqs γ}
    (sig : alg.primitive = .hybSig) (signs : evp.Signs alg.evpInfo) (restores : evp.Restores alg.evpInfo)
    (signsPq : oqs.Signs alg.qsCtx)
    (smallPublic : alg.evpInfo.lengthPublicKey < 2 ^ 32)
    (smallPrivate : alg.evpInfo.lengthPrivateKey < 2 ^ 32)
    (smallSignature : sizeOfUint32 + alg.evpInfo.lengthSignature + alg.qsCtx.lengthSignature < 2 ^ 32)
    {coins : γ × γ} {generatedKey : OqsxKey κ}
    (generated : oqsxGenkey evp oqs alg coins = some (some generatedKey))
    (complete : generatedKey.classicalPkey.isSome) :
    ∃ file signer certificate verifier, oqsxPkiPrivToDer generatedKey = some (some file) ∧
      oqsxKeyFromPkcs8 evp alg file = some (some signer) ∧
      oqsxSpkiPubToDer generatedKey = some (some certificate) ∧
      oqsxKeyFromX509pubkey evp alg certificate = some (some verifier) ∧
      ∀ sent received, sent.flatten = received.flatten → ∀ d buf siglen, siglen ≤ buf.length →
        ∃ out, oqsSigDigestSignFinal evp oqs (contextFor signer .sign sent) d (some buf) siglen =
            some out ∧
          (out.rv = 1 → ∃ after, out.sig = some after ∧
            oqsSigDigestVerifyFinal evp oqs (contextFor verifier .verify received)
              (read after 0 out.siglen) = some 1) := by
  obtain ⟨k, classical⟩ := Option.isSome_iff_exists.mp complete
  obtain ⟨pk, sk, keygen, keypair, fits, rfl⟩ := genkey_hybSig sig smallPublic smallPrivate generated classical
  have publicLength := signsPq.publicLength keypair
  have secretLength := signsPq.secretLength keypair
  have form := sigPubkey_form fits.publicKey publicLength
  obtain ⟨k', taken, verifies⟩ := signs keygen
  obtain ⟨imported, ran, accepts⟩ := oqsxKeyFromX509pubkey_accepts sig smallPublic evp _
  have accepted := (accepts _).mpr ⟨_, _, k', form, taken, rfl⟩
  obtain ⟨pubkey, privkey, loaded, component⟩ := oqsxKeyFromPkcs8_keyFile sig smallPublic smallPrivate
    publicLength secretLength (restores.present keygen) fits.privateKey (restores.restored keygen)
    (restores.publicLength keygen)
  refine ⟨_, _, _, _, oqsxPkiPrivToDer_sigKey sig smallPrivate fits.publicKey fits.privateKey publicLength
    secretLength, loaded, oqsxSpkiPubToDer_sigKey fits.publicKey publicLength,
    ran.trans (congrArg some accepted), ?_⟩
  intro sent received same d buf siglen room
  exact hybridKey_signature_verifies sig signsPq smallSignature component keypair form verifies same d room

theorem product_restores : Evp.product.Restores oneByteSignature.evpInfo where
  present _ := List.cons_ne_nil _ _
  restored _ := rfl
  publicLength _ := rfl

/-- The file and the certificate of the key pairs 3 and 5, and a signature made with the file. -/
theorem key_file_signature_verifies_oneByte :
    ∃ generatedKey file signer certificate verifier signature,
      oqsxGenkey Evp.product Liboqs.initialled oneByteSignature (3, 5) = some (some generatedKey) ∧
      oqsxPkiPrivToDer generatedKey = some (some file) ∧
      oqsxKeyFromPkcs8 Evp.product oneByteSignature file = some (some signer) ∧
      oqsxSpkiPubToDer generatedKey = some (some certificate) ∧
      oqsxKeyFromX509pubkey Evp.product oneByteSignature certificate = some (some verifier) ∧
      (∃ out, oqsSigDigestSignFinal Evp.product Liboqs.initialled (contextFor signer .sign [[1], [2]]) (7, 9)
        (some (List.replicate 8 0)) 8 = some out ∧ out.rv = 1 ∧
        out.sig.map (fun sig => read sig 0 out.siglen) = some signature) ∧
      oqsSigDigestVerifyFinal Evp.product Liboqs.initialled (contextFor verifier .verify [[1, 2]]) signature =
        some 1 := by
  have generated : oqsxGenkey Evp.product Liboqs.initialled oneByteSignature (3, 5) =
      some (some (sigKey oneByteSignature (some 3) [3] [3] [5] [5])) := rfl
  obtain ⟨file, signer, certificate, verifier, stored, loaded, exported, imported, checked⟩ :=
    key_file_signature_verifies rfl product_signs product_restores initialled_signs (by decide) (by decide)
      (by decide) generated rfl
  obtain ⟨out, signed, verifies⟩ := checked [[1], [2]] [[1, 2]] rfl (7, 9) (List.replicate 8 0) 8 le_rfl
  have ok : out.rv = 1 := by
    have computed : (oqsxPkiPrivToDer (sigKey oneByteSignature (some (3 : UInt8)) [3] [3] [5] [5])).bind (fun file =>
        (oqsxKeyFromPkcs8 Evp.product oneByteSignature (file.getD [])).bind fun signer => signer.bind fun signer =>
          (oqsSigDigestSignFinal Evp.product Liboqs.initialled (contextFor signer .sign [[1], [2]]) (7, 9)
            (some (List.replicate 8 0)) 8).map Signed.rv) = some 1 := by
      decide +kernel
    rw [stored, Option.bind_some, Option.getD_some, loaded, Option.bind_some, Option.bind_some, signed] at computed
    exact Option.some.inj computed
  obtain ⟨after, made, verified⟩ := verifies ok
  exact ⟨_, file, signer, certificate, verifier, _, generated, stored, loaded, exported, imported,
    ⟨out, signed, ok, by rw [made]; rfl⟩, verified⟩

end PqcLab.Oqs
