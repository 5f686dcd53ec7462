import PqcLab.Library.Buffer

/-! `OQSX_KEY`: the layout of plain and hybrid keys, and their generation. Where the program would follow a
null or a dangling pointer, or leave a buffer, the model has no result. -/

namespace PqcLab.Oqs

abbrev Bytes := List UInt8

def sizeOfUint32 : ℕ := 4

inductive KeyType
  | sig
  | kem
  | ecpHybKem
  | ecbpHybKem
  | ecxHybKem
  | hybSig
  deriving DecidableEq

def KeyType.isHybKem : KeyType → Bool
  | .ecpHybKem | .ecbpHybKem | .ecxHybKem => true
  | .sig | .kem | .hybSig => false

def KeyType.isHybrid (keytype : KeyType) : Bool := keytype.isHybKem || keytype == .hybSig

/-- `OQSX_EVP_INFO` -/
structure EvpInfo where
  rawKeySupport : Bool
  lengthPublicKey : ℕ
  lengthPrivateKey : ℕ
  kexLengthSecret : ℕ
  lengthSignature : ℕ

/-- An `OQS_KEM` or an `OQS_SIG`, which have the lengths of their keys at the same place. -/
structure OqsAlg where
  claimedNistLevel : ℕ
  lengthPublicKey : ℕ
  lengthSecretKey : ℕ
  lengthCiphertext : ℕ
  lengthSharedSecret : ℕ
  lengthSignature : ℕ

structure Algorithm where
  primitive : KeyType
  qsCtx : OqsAlg
  evpInfo : EvpInfo
  reverseShare : Bool

/-- `OQSX_KEY`; `κ` are the `EVP_PKEY`s of its classical algorithm. The component pointers are offsets into
the buffers. -/
structure OqsxKey (κ : Type) where
  keytype : KeyType
  qsCtx : OqsAlg
  evpInfo : EvpInfo
  numkeys : ℕ
  reverseShare : Bool
  privkeylen : ℕ
  pubkeylen : ℕ
  compPrivkey : ℕ → Option ℕ
  compPubkey : ℕ → Option ℕ
  classicalPkey : Option κ
  privkey : Option Bytes
  pubkey : Option Bytes

inductive Md
  | sha256
  | sha384
  | sha512
  deriving DecidableEq

/-- The functions of OpenSSL that are called for one classical algorithm; `γ` is their randomness. -/
structure Evp (κ γ : Type) where
  keygen : γ → Option κ
  getEncodedPublicKey : κ → Bytes
  getRawPublicKey : κ → Bytes
  getRawPrivateKey : κ → Bytes
  i2dPublicKey : κ → Bytes
  i2dPrivateKey : κ → Bytes
  setEncodedPublicKey : Bytes → Option κ
  newRawPublicKey : Bytes → Option κ
  newRawPrivateKey : Bytes → Option κ
  d2iPublicKey : Bytes → Option κ
  d2iPrivateKey : Bytes → Option κ
  d2iAutoPrivateKey : Bytes → Option κ
  derive : κ → κ → Option Bytes
  digest : Md → Bytes → Bytes
  sign : γ → κ → Md → Bytes → Option Bytes
  verify : κ → Md → Bytes → Bytes → Bool

/-- The functions of liboqs that are called for one algorithm. -/
structure Liboqs (γ : Type) where
  keypair : γ → Option (Bytes × Bytes)
  kemEncaps : γ → Bytes → Option (Bytes × Bytes)
  kemDecaps : Bytes → Bytes → Option Bytes
  sigSign : γ → Bytes → Bytes → Bytes → Option Bytes
  sigVerify : Bytes → Bytes → Bytes → Bytes → Bool

section New

variable {κ : Type}

def oqsxKeyNew (alg : Algorithm) : OqsxKey κ :=
  let plain : OqsxKey κ :=
    { keytype := alg.primitive, qsCtx := alg.qsCtx, evpInfo := alg.evpInfo, numkeys := 1, reverseShare := false,
      privkeylen := alg.qsCtx.lengthSecretKey, pubkeylen := alg.qsCtx.lengthPublicKey,
      compPrivkey := fun _ => none, compPubkey := fun _ => none,
      classicalPkey := none, privkey := none, pubkey := none }
  let hybrid : OqsxKey κ :=
    { plain with
      numkeys := 2
      privkeylen := sizeOfUint32 + alg.qsCtx.lengthSecretKey + alg.evpInfo.lengthPrivateKey
      pubkeylen := sizeOfUint32 + alg.qsCtx.lengthPublicKey + alg.evpInfo.lengthPublicKey }
  match alg.primitive with
  | .sig | .kem => plain
  | .ecxHybKem | .ecbpHybKem | .ecpHybKem => { hybrid with reverseShare := alg.reverseShare }
  | .hybSig => hybrid

end New

namespace OqsxKey

variable {κ : Type} (key : OqsxKey κ)

def reversed : Bool := key.keytype.isHybKem && key.reverseShare

/-- `oqsx_comp_set_idx` -/
def idxClassic : ℕ := if key.reversed then key.numkeys - 1 else 0

/-- `oqsx_comp_set_idx` -/
def idxPq : ℕ := if key.reversed then 0 else key.numkeys - 1

def classicLen (fixed : Bool) (greatest : ℕ) (buf : Bytes) : Option ℕ :=
  if fixed then some greatest
  else if Buffer.decodeUint32 buf > greatest then none
  else some (Buffer.decodeUint32 buf)

def componentOffsets (reversed : Bool) (qsLen classicLen : ℕ) : ℕ → Option ℕ
  | 0 => some sizeOfUint32
  | 1 => some (sizeOfUint32 + if reversed then qsLen else classicLen)
  | _ => none

/-- `oqsx_comp_set_offsets` for one of the buffers; without a buffer the pointers become `NULL`. -/
def compSetOffsets (fixed : Bool) (greatest qsLen : ℕ) : Option Bytes → Option (ℕ → Option ℕ)
  | none => some fun _ => none
  | some buf => (classicLen fixed greatest buf).map (componentOffsets key.reversed qsLen)

/-- `oqsx_key_set_composites` -/
def setComposites (classicLengthsFixed : Bool) : Option (OqsxKey κ) :=
  if key.numkeys = 1 then
    some { key with
      compPrivkey := fun i => if i = 0 then key.privkey.map fun _ => 0 else none
      compPubkey := fun i => if i = 0 then key.pubkey.map fun _ => 0 else none }
  else do
    let compPrivkey ← key.compSetOffsets classicLengthsFixed key.evpInfo.lengthPrivateKey
      key.qsCtx.lengthSecretKey key.privkey
    let compPubkey ← key.compSetOffsets classicLengthsFixed key.evpInfo.lengthPublicKey
      key.qsCtx.lengthPublicKey key.pubkey
    return { key with compPrivkey, compPubkey }

/-- `oqsx_key_allocate_keymaterial` -/
def allocateKeymaterial (includePrivate : Bool) : OqsxKey κ :=
  if includePrivate then
    { key with privkey := key.privkey.or (some (List.replicate (key.privkeylen + sizeOfUint32) 0)) }
  else { key with pubkey := key.pubkey.or (some (List.replicate key.pubkeylen 0)) }

def load (buf : Option Bytes) (pointer : Option ℕ) (n : ℕ) : Option Bytes := do
  let buf ← buf
  let off ← pointer
  Buffer.load buf off n

/-- `memcpy` -/
def store (buf : Option Bytes) (pointer : Option ℕ) (data : Bytes) : Option Bytes := do
  let buf ← buf
  let off ← pointer
  Buffer.store buf off data

def storePublic (pointer : Option ℕ) (data : Bytes) : Option (OqsxKey κ) := do
  let pubkey ← store key.pubkey pointer data
  return { key with pubkey := some pubkey }

def storePrivate (pointer : Option ℕ) (data : Bytes) : Option (OqsxKey κ) := do
  let privkey ← store key.privkey pointer data
  return { key with privkey := some privkey }

/-- `ENCODE_UINT32` of the lengths of both classical keys. -/
def encodeLengths (publen privlen : ℕ) : Option (OqsxKey κ) := do
  let key ← key.storePublic (some 0) (Buffer.encodeUint32 publen)
  key.storePrivate (some 0) (Buffer.encodeUint32 privlen)

end OqsxKey

section Generation

variable {κ γ : Type} (evp : Evp κ γ) (oqs : Liboqs γ)

/-- The keys of algorithms with raw keys, of exactly the expected lengths. -/
def storeRawKeys (key : OqsxKey κ) (pubkey privkey : Option ℕ) (pkey : κ) :
    Option (OqsxKey κ × Option κ) := do
  -- for Ed25519 and Ed448 the encoding is the raw public key
  if (evp.getEncodedPublicKey pkey).length ≠ key.evpInfo.lengthPublicKey then return (key, none)
  let key ← key.storePublic pubkey (evp.getEncodedPublicKey pkey)
  -- a longer key than expected is not written
  if (evp.getRawPrivateKey pkey).length > key.evpInfo.lengthPrivateKey then return (key, none)
  let key ← key.storePrivate privkey (evp.getRawPrivateKey pkey)
  if (evp.getRawPrivateKey pkey).length ≠ key.evpInfo.lengthPrivateKey then return (key, none)
  let key ← key.encodeLengths (evp.getEncodedPublicKey pkey).length (evp.getRawPrivateKey pkey).length
  return (key, some pkey)

/-- The keys of the other algorithms, in DER; they are checked after they have been written. -/
def storeDerKeys (key : OqsxKey κ) (pubkey privkey : Option ℕ) (pkey : κ) :
    Option (OqsxKey κ × Option κ) := do
  let key ← key.storePublic pubkey (evp.i2dPublicKey pkey)
  if (evp.i2dPublicKey pkey).length > key.evpInfo.lengthPublicKey then return (key, none)
  let key ← key.storePrivate privkey (evp.i2dPrivateKey pkey)
  if (evp.i2dPrivateKey pkey).length > key.evpInfo.lengthPrivateKey then return (key, none)
  -- the self-test
  if (evp.d2iPrivateKey (evp.i2dPrivateKey pkey)).isNone then return (key, none)
  let key ← key.encodeLengths (evp.i2dPublicKey pkey).length (evp.i2dPrivateKey pkey).length
  return (key, some pkey)

/-- The classical key pair, stored at both pointers; `none` beside the key is the error `NULL`. -/
def genEvpKey (key : OqsxKey κ) (pubkey privkey : Option ℕ) (coin : γ) : Option (OqsxKey κ × Option κ) :=
  match evp.keygen coin with
  | none => some (key, none)
  | some pkey =>
    if key.evpInfo.rawKeySupport then storeRawKeys evp key pubkey privkey pkey
    else storeDerKeys evp key pubkey privkey pkey

def oqsxKeyGenEvpKeyKem (key : OqsxKey κ) (coin : γ) : Option (OqsxKey κ × Option κ) :=
  genEvpKey evp key (key.compPubkey key.idxClassic) (key.compPrivkey key.idxClassic) coin

def oqsxKeyGenEvpKeySig (key : OqsxKey κ) (coin : γ) : Option (OqsxKey κ × Option κ) :=
  genEvpKey evp key (some sizeOfUint32) (some sizeOfUint32) coin

/-- `oqsx_key_gen_oqs`, with the return code. -/
def oqsxKeyGenOqs (key : OqsxKey κ) (coin : γ) : Option (ℤ × OqsxKey κ) :=
  match oqs.keypair coin with
  | none => some (-1, { key with classicalPkey := none })
  | some (publicKey, secretKey) => do
    let key ← key.storePublic (key.compPubkey key.idxPq) publicKey
    let key ← key.storePrivate (key.compPrivkey key.idxPq) secretKey
    return (0, key)

/-- Once the classical key pair is there; without one, the return code is still zero. -/
def afterEvpKey (gen : OqsxKey κ → κ → Option (ℤ × OqsxKey κ)) :
    OqsxKey κ × Option κ → Option (ℤ × OqsxKey κ)
  | (key, none) => some (0, key)
  | (key, some pkey) => gen key pkey

def withComposites (key : OqsxKey κ) (classicLengthsFixed : Bool)
    (gen : OqsxKey κ → Option (ℤ × OqsxKey κ)) : Option (ℤ × OqsxKey κ) :=
  match key.setComposites classicLengthsFixed with
  | none => some (1, { key with classicalPkey := none })
  | some key => gen key

/-- `oqsx_key_gen`; zero is success. -/
def oqsxKeyGen (key : OqsxKey κ) (coins : γ × γ) : Option (ℤ × OqsxKey κ) :=
  let key := (key.allocateKeymaterial false).allocateKeymaterial true
  if key.keytype.isHybKem then
    withComposites key true fun key =>
      (oqsxKeyGenEvpKeyKem evp key coins.1).bind (afterEvpKey fun key pkey =>
        oqsxKeyGenOqs oqs { key with classicalPkey := some pkey } coins.2)
  else if key.keytype = .hybSig then
    (oqsxKeyGenEvpKeySig evp key coins.1).bind (afterEvpKey fun key pkey =>
      withComposites key false fun key =>
        oqsxKeyGenOqs oqs { key with classicalPkey := some pkey } coins.2)
  else withComposites key false fun key => oqsxKeyGenOqs oqs key coins.2

/-- `oqsx_genkey`; `none` inside is the error `NULL`. -/
def oqsxGenkey (alg : Algorithm) (coins : γ × γ) : Option (Option (OqsxKey κ)) := do
  let (ret, key) ← oqsxKeyGen evp oqs (oqsxKeyNew alg) coins
  return if ret = 0 then some key else none

end Generation

section Params

variable {κ : Type}

/-- `oqsx_get_params` for `OSSL_PKEY_PARAM_ENCODED_PUBLIC_KEY` -/
def getEncodedPublicKey (key : OqsxKey κ) : Option Bytes :=
  if key.keytype.isHybKem then
    OqsxKey.load key.pubkey (some sizeOfUint32) (key.pubkeylen - sizeOfUint32)
  else OqsxKey.load key.pubkey (some 0) key.pubkeylen

/-- `oqsx_set_params` for `OSSL_PKEY_PARAM_ENCODED_PUBLIC_KEY`: the return code, and the key, whose private
key is freed. -/
def setEncodedPublicKey (key : OqsxKey κ) (data : Bytes) : Option (ℤ × OqsxKey κ) :=
  if key.keytype.isHybKem then
    if data.length ≠ key.pubkeylen - sizeOfUint32 then some (0, key)
    else do
      let key ← key.storePublic (key.compPubkey 0) data
      return (1, { key with privkey := none })
  else if data.length ≠ key.pubkeylen then some (0, key)
  else do
    let pubkey ← OqsxKey.store (key.pubkey.or (some data)) (some 0) data
    return (1, { key with pubkey := some pubkey, privkey := none })

end Params

end PqcLab.Oqs
