import Mathlib.Data.List.Basic
import Mathlib.Data.List.Induction
import PqcLab.Oqs.HybridKem

/-! `oqs_sig.c` -/

namespace PqcLab.Oqs

open Buffer

variable {κ γ : Type}

/-- A digest, as a function of all the data that it is given. -/
abbrev Digest := Bytes → Bytes

/-- `PROV_OQSSIG_CTX` -/
structure SigCtx (κ : Type) where
  sig : Option (OqsxKey κ)
  /-- `mdctx` by its digest and what has gone into it. -/
  mdctx : Option (Digest × Bytes)
  mddata : Option Bytes
  contextString : Bytes

inductive Operation
  | sign
  | verify
  deriving DecidableEq

def oqsSigNewctx : SigCtx κ where
  sig := none
  mdctx := none
  mddata := none
  contextString := []

/-- `oqs_sig_signverify_init`, with the return code. -/
def oqsSigSignverifyInit (ctx : SigCtx κ) (key : OqsxKey κ) (operation : Operation) : ℤ × SigCtx κ :=
  if operation = .sign ∧ key.privkey = none ∨ operation = .verify ∧ key.pubkey = none then
    (0, { ctx with sig := some key })
  else (1, { ctx with sig := some key })

/-- The argument `mdname`: a null pointer, or a name by what `EVP_MD_fetch` makes of it. -/
inductive MdName
  | null
  | unknown
  | fetched (md : Digest)

/-- `oqs_sig_digest_signverify_init`, with the return code. -/
def oqsSigDigestSignverifyInit (ctx : SigCtx κ) (mdname : MdName) (key : OqsxKey κ) (operation : Operation) :
    ℤ × SigCtx κ :=
  let (ret, ctx) := oqsSigSignverifyInit ctx key operation
  if ret = 0 then (0, ctx)
  else match mdname with
    | .null => (1, ctx)
    | .unknown => (0, ctx)
    | .fetched md => (1, { ctx with mdctx := some (md, []) })

/-- `oqs_sig_collect_data`; there is no allocation of zero bytes. -/
def oqsSigCollectData (ctx : SigCtx κ) (data : Bytes) : ℤ × SigCtx κ :=
  match ctx.mddata with
  | some mddata => (1, { ctx with mddata := some (mddata ++ data) })
  | none => if data = [] then (0, ctx) else (1, { ctx with mddata := some data })

/-- `oqs_sig_digest_signverify_update` -/
def oqsSigDigestSignverifyUpdate (ctx : SigCtx κ) (data : Bytes) : ℤ × SigCtx κ :=
  match ctx.mdctx with
  | some (md, hashed) => (1, { ctx with mdctx := some (md, hashed ++ data) })
  | none => oqsSigCollectData ctx data

structure Signed where
  rv : ℤ
  siglen : ℕ
  sig : Option Bytes
  deriving DecidableEq

def classicalMd (claimedNistLevel : ℕ) : Md :=
  if claimedNistLevel = 1 then .sha256
  else if claimedNistLevel = 2 ∨ claimedNistLevel = 3 then .sha384
  else .sha512

section Directly

variable (evp : Evp κ γ) (oqs : Liboqs γ) (key : OqsxKey κ)

def signClassical (coin : γ) (buf tbs : Bytes) : Option (Bytes × Option ℕ) :=
  match key.classicalPkey with
  | none => some (buf, none)
  | some pkey =>
    let md := classicalMd key.qsCtx.claimedNistLevel
    match evp.sign coin pkey md (evp.digest md tbs) with
    | none => some (buf, none)
    | some signature =>
      -- `EVP_PKEY_sign` does not write more than it was told
      if signature.length > key.evpInfo.lengthSignature then some (buf, none)
      else do
        let buf ← Buffer.store buf sizeOfUint32 signature
        let buf ← Buffer.store buf 0 (encodeUint32 signature.length)
        return (buf, some (sizeOfUint32 + signature.length))

def signPq (contextString : Bytes) (coin : γ) (tbs : Bytes) (siglen : ℕ) :
    Bytes × Option ℕ → Option Signed
  | (buf, none) => some { rv := 0, siglen, sig := some buf }
  | (buf, some index) => do
    let secretKey ← OqsxKey.load key.privkey (key.compPrivkey (key.numkeys - 1)) key.qsCtx.lengthSecretKey
    match oqs.sigSign coin contextString tbs secretKey with
    | none => return { rv := 0, siglen, sig := some buf }
    | some signature => do
      let buf ← Buffer.store buf index signature
      return { rv := 1, siglen := index + signature.length, sig := some buf }

def maxSigLen : ℕ :=
  if key.keytype = .hybSig then key.qsCtx.lengthSignature + (sizeOfUint32 + key.evpInfo.lengthSignature)
  else key.qsCtx.lengthSignature

/-- `oqs_sig_sign_directly` with a key, with the length of the buffer that the caller passed in. -/
def oqsSigSignDirectly (contextString : Bytes) (coins : γ × γ) (sig : Option Bytes) (siglen : ℕ)
    (tbs : Bytes) : Option Signed :=
  if key.privkey = none then some { rv := 0, siglen, sig }
  else match sig with
    | none => some { rv := 1, siglen := maxSigLen key, sig := none }
    | some buf =>
      if siglen < maxSigLen key then some { rv := 0, siglen, sig }
      else if key.keytype = .hybSig then
        (signClassical evp key coins.1 buf tbs).bind (signPq oqs key contextString coins.2 tbs siglen)
      else signPq oqs key contextString coins.2 tbs siglen (buf, some 0)

/-- `a - b` in `size_t` -/
def sizeSub (a b : ℕ) : ℕ := (a + 2 ^ 64 - b) % 2 ^ 64

/-- The classical part of a signature verified, and where it ends; `none` there is an error. The sum of the
two lengths is a `uint32_t`. -/
def verifyClassical (sig tbs : Bytes) : Option (Option ℕ) :=
  match key.classicalPkey with
  | none => some none
  | some pkey =>
    if sig.length > sizeOfUint32 then
      let actualClassicalSigLen := Buffer.decodeUint32 sig
      let actualPqSigLen := sizeSub (sizeSub sig.length sizeOfUint32) actualClassicalSigLen
      let index := (sizeOfUint32 + actualClassicalSigLen) % 2 ^ 32
      if sig.length ≤ index ∨ actualClassicalSigLen > key.evpInfo.lengthSignature ∨
          actualPqSigLen > key.qsCtx.lengthSignature then some none
      else do
        let md := classicalMd key.qsCtx.claimedNistLevel
        let signature ← Buffer.load sig sizeOfUint32 actualClassicalSigLen
        return if evp.verify pkey md signature (evp.digest md tbs) then some index else none
    else some none

def verifyPq (contextString sig tbs : Bytes) : Option ℕ → Option ℤ
  | none => some 0
  | some index =>
    if key.compPubkey (key.numkeys - 1) = none then some 0
    else do
      let publicKey ← OqsxKey.load key.pubkey (key.compPubkey (key.numkeys - 1)) key.qsCtx.lengthPublicKey
      let signature ← Buffer.load sig index (sizeSub sig.length index)
      return if oqs.sigVerify contextString tbs signature publicKey then 1 else 0

/-- `oqs_sig_verify_directly` with a key -/
def oqsSigVerifyDirectly (contextString sig tbs : Bytes) : Option ℤ :=
  if key.pubkey = none then some 0
  else if key.keytype = .hybSig then
    (verifyClassical evp key sig tbs).bind (verifyPq oqs key contextString sig tbs)
  else verifyPq oqs key contextString sig tbs (some 0)

end Directly

/-- What both final calls pass on. -/
def SigCtx.tbs (ctx : SigCtx κ) : Bytes :=
  match ctx.mdctx with
  | some (md, hashed) => md hashed
  | none => ctx.mddata.getD []

/-- `oqs_sig_digest_sign_final`; without a key a null pointer is followed. -/
def oqsSigDigestSignFinal (evp : Evp κ γ) (oqs : Liboqs γ) (ctx : SigCtx κ) (coins : γ × γ)
    (sig : Option Bytes) (siglen : ℕ) : Option Signed := do
  let key ← ctx.sig
  oqsSigSignDirectly evp oqs key ctx.contextString coins sig siglen ctx.tbs

def oqsSigDigestVerifyFinal (evp : Evp κ γ) (oqs : Liboqs γ) (ctx : SigCtx κ) (sig : Bytes) : Option ℤ := do
  let key ← ctx.sig
  oqsSigVerifyDirectly evp oqs key ctx.contextString sig ctx.tbs

/-- The length of the classical part, that part, and the other one, neither too long. -/
structure SignatureOf (info : EvpInfo) (qs : OqsAlg) (sig classical pq : Bytes) : Prop where
  framed : sig = encodeUint32 classical.length ++ (classical ++ pq)
  classicalFits : classical.length ≤ info.lengthSignature
  pqPresent : pq ≠ []
  pqFits : pq.length ≤ qs.lengthSignature

section Accepts

variable {evp : Evp κ γ} {oqs : Liboqs γ} {key : OqsxKey κ} {k : κ} {sig tbs : Bytes}

/-- What the checks of the lengths amount to, although they are made in machine arithmetic. -/
theorem lengths_checked {siglen actual classicalMax : ℕ} (pqMax : ℕ) (short : siglen < 2 ^ 64)
    (small : sizeOfUint32 + classicalMax < 2 ^ 32) (actualSmall : actual < 2 ^ 32)
    (long : siglen > sizeOfUint32) :
    (siglen ≤ (sizeOfUint32 + actual) % 2 ^ 32 ∨ actual > classicalMax ∨
        sizeSub (sizeSub siglen sizeOfUint32) actual > pqMax) ↔
      ¬(sizeOfUint32 + actual < siglen ∧ actual ≤ classicalMax ∧ siglen - (sizeOfUint32 + actual) ≤ pqMax) := by
  have front : sizeOfUint32 = 4 := rfl
  unfold sizeSub
  omega

section Form

variable {info : EvpInfo} {qs : OqsAlg} {classical pq : Bytes}

theorem SignatureOf.length (form : SignatureOf info qs sig classical pq) :
    sig.length = sizeOfUint32 + classical.length + pq.length := by
  rw [form.framed, List.length_append, List.length_append, encodeUint32_length, Nat.add_assoc]
  rfl

theorem SignatureOf.pq_length (form : SignatureOf info qs sig classical pq) : 0 < pq.length :=
  List.length_pos_iff.mpr form.pqPresent

variable (small : sizeOfUint32 + info.lengthSignature < 2 ^ 32)

include small

theorem SignatureOf.decoded (form : SignatureOf info qs sig classical pq) :
    decodeUint32 sig = classical.length := by
  have fits := form.classicalFits
  rw [form.framed]
  exact decodeUint32_framed (by omega)

theorem SignatureOf.classical_eq (form : SignatureOf info qs sig classical pq) :
    read sig sizeOfUint32 (decodeUint32 sig) = classical := by
  rw [form.decoded small, form.framed]
  exact read_framed _ _

theorem SignatureOf.pq_eq (form : SignatureOf info qs sig classical pq) :
    read sig (sizeOfUint32 + decodeUint32 sig) (sig.length - (sizeOfUint32 + decodeUint32 sig)) = pq := by
  have whole := form.length
  have rest : sig.length - (sizeOfUint32 + classical.length) = pq.length := by omega
  rw [form.decoded small, rest, form.framed]
  exact read_framed_rest _ _

theorem SignatureOf.checked (form : SignatureOf info qs sig classical pq) :
    sizeOfUint32 + decodeUint32 sig < sig.length ∧ decodeUint32 sig ≤ info.lengthSignature ∧
      sig.length - (sizeOfUint32 + decodeUint32 sig) ≤ qs.lengthSignature := by
  have whole := form.length
  have present := form.pq_length
  have fits := form.pqFits
  have classicalFits := form.classicalFits
  rw [form.decoded small]
  omega

end Form

theorem signatureOf_of_checked {info : EvpInfo} {qs : OqsAlg}
    (checked : sizeOfUint32 + decodeUint32 sig < sig.length ∧ decodeUint32 sig ≤ info.lengthSignature ∧
      sig.length - (sizeOfUint32 + decodeUint32 sig) ≤ qs.lengthSignature) :
    SignatureOf info qs sig (read sig sizeOfUint32 (decodeUint32 sig))
      (read sig (sizeOfUint32 + decodeUint32 sig) (sig.length - (sizeOfUint32 + decodeUint32 sig))) := by
  obtain ⟨present, classicalFits, pqFits⟩ := checked
  have first : (read sig sizeOfUint32 (decodeUint32 sig)).length = decodeUint32 sig :=
    read_length (by omega)
  have second : (read sig (sizeOfUint32 + decodeUint32 sig)
      (sig.length - (sizeOfUint32 + decodeUint32 sig))).length =
        sig.length - (sizeOfUint32 + decodeUint32 sig) := read_length (by omega)
  have front : sizeOfUint32 = 4 := rfl
  refine ⟨?_, first.le.trans classicalFits, List.length_pos_iff.mp (by omega), second.le.trans pqFits⟩
  rw [first]
  exact framed_of_long rfl (by omega)

theorem verifyClassical_eq_some (evp : Evp κ γ) (tbs : Bytes) (has : key.classicalPkey = some k)
    (short : sig.length < 2 ^ 64) (small : sizeOfUint32 + key.evpInfo.lengthSignature < 2 ^ 32) :
    ∃ result, verifyClassical evp key sig tbs = some result ∧ ∀ index, result = some index ↔
      ∃ classical pq, SignatureOf key.evpInfo key.qsCtx sig classical pq ∧
        evp.verify k (classicalMd key.qsCtx.claimedNistLevel) classical
          (evp.digest (classicalMd key.qsCtx.claimedNistLevel) tbs) ∧
        index = sizeOfUint32 + classical.length := by
  rw [verifyClassical, has]
  dsimp only
  split
  · rename_i long
    have checks := lengths_checked key.qsCtx.lengthSignature short small (decodeUint32_lt sig) long
    split
    · rename_i rejected
      refine ⟨none, rfl, fun index => ⟨nofun, ?_⟩⟩
      rintro ⟨classical, pq, form, -, -⟩
      exact absurd (form.checked small) (checks.mp rejected)
    · rename_i passed
      have accepted := not_not.mp ((not_congr checks).mp passed)
      have form := signatureOf_of_checked accepted
      have unwrapped : (sizeOfUint32 + decodeUint32 sig) % 2 ^ 32 = sizeOfUint32 + decodeUint32 sig :=
        Nat.mod_eq_of_lt (by omega)
      rw [load_eq (by omega), unwrapped]
      refine ⟨_, rfl, fun index => ⟨fun found => ?_, ?_⟩⟩
      · split at found
        · rename_i verified
          cases found
          exact ⟨_, _, form, verified, by rw [← form.decoded small]⟩
        · cases found
      · rintro ⟨classical, pq, other, verified, rfl⟩
        rw [other.classical_eq small, if_pos verified, other.decoded small]
  · rename_i few
    refine ⟨none, rfl, fun index => ⟨nofun, ?_⟩⟩
    rintro ⟨classical, pq, form, -, -⟩
    have whole := form.length
    have present := form.pq_length
    omega

theorem sizeSub_eq {a b : ℕ} (ordered : b ≤ a) (short : a < 2 ^ 64) : sizeSub a b = a - b := by
  unfold sizeSub
  omega

theorem verifyPq_some {pk contextString : Bytes} {index : ℕ}
    (component : OqsxKey.load key.pubkey (key.compPubkey (key.numkeys - 1)) key.qsCtx.lengthPublicKey = some pk)
    (ordered : index ≤ sig.length) (short : sig.length < 2 ^ 64) :
    verifyPq oqs key contextString sig tbs (some index) =
      some (if oqs.sigVerify contextString tbs (read sig index (sig.length - index)) pk then 1 else 0) := by
  have loaded : Buffer.load sig index (sizeSub sig.length index) =
      some (read sig index (sig.length - index)) := by
    rw [sizeSub_eq ordered short]
    exact load_eq (by omega)
  simp only [verifyPq, if_neg (load_pointer component), component, loaded, Option.bind_eq_bind,
    Option.bind_some, Option.pure_def]

theorem oqsSigVerifyDirectly_hybrid (hyb : key.keytype = .hybSig) (has : key.classicalPkey = some k)
    {pk contextString : Bytes}
    (component : OqsxKey.load key.pubkey (key.compPubkey (key.numkeys - 1)) key.qsCtx.lengthPublicKey = some pk)
    (short : sig.length < 2 ^ 64) (small : sizeOfUint32 + key.evpInfo.lengthSignature < 2 ^ 32) :
    ∃ rv, oqsSigVerifyDirectly evp oqs key contextString sig tbs = some rv ∧ (rv = 0 ∨ rv = 1) ∧
      (rv = 1 ↔ ∃ classical pq, SignatureOf key.evpInfo key.qsCtx sig classical pq ∧
        evp.verify k (classicalMd key.qsCtx.claimedNistLevel) classical
          (evp.digest (classicalMd key.qsCtx.claimedNistLevel) tbs) ∧
        oqs.sigVerify contextString tbs pq pk) := by
  have present : key.pubkey ≠ none := by
    intro absent
    rw [absent] at component
    cases component
  obtain ⟨result, ran, means⟩ := verifyClassical_eq_some evp tbs has short small
  rw [oqsSigVerifyDirectly, if_neg present, if_pos hyb, ran, Option.bind_some]
  cases result with
  | none =>
    refine ⟨0, rfl, .inl rfl, ⟨nofun, ?_⟩⟩
    rintro ⟨classical, pq, form, verified, -⟩
    cases (means _).mpr ⟨classical, pq, form, verified, rfl⟩
  | some index =>
    obtain ⟨classical, pq, form, verified, rfl⟩ := (means index).mp rfl
    have whole := form.length
    have index : sizeOfUint32 + classical.length = sizeOfUint32 + decodeUint32 sig := by
      rw [form.decoded small]
    rw [verifyPq_some component (by omega) short, index, form.pq_eq small]
    refine ⟨_, rfl, by split <;> decide, ?_⟩
    constructor
    · intro one
      refine ⟨classical, pq, form, verified, ?_⟩
      split at one
      · assumption
      · cases one
    · rintro ⟨classical', pq', other, -, accepted⟩
      rw [← form.pq_eq small, other.pq_eq small, if_pos accepted]

theorem oqsSigVerifyDirectly_eq_one (hyb : key.keytype = .hybSig) (has : key.classicalPkey = some k)
    {pk contextString : Bytes}
    (component : OqsxKey.load key.pubkey (key.compPubkey (key.numkeys - 1)) key.qsCtx.lengthPublicKey = some pk)
    (short : sig.length < 2 ^ 64) (small : sizeOfUint32 + key.evpInfo.lengthSignature < 2 ^ 32) :
    oqsSigVerifyDirectly evp oqs key contextString sig tbs = some 1 ↔
      ∃ classical pq, SignatureOf key.evpInfo key.qsCtx sig classical pq ∧
        evp.verify k (classicalMd key.qsCtx.claimedNistLevel) classical
          (evp.digest (classicalMd key.qsCtx.claimedNistLevel) tbs) ∧
        oqs.sigVerify contextString tbs pq pk := by
  obtain ⟨rv, ran, -, means⟩ := oqsSigVerifyDirectly_hybrid hyb has component short small
  rw [ran, Option.some.injEq, means]

end Accepts

def Liboqs.SignsWithin (oqs : Liboqs γ) (qs : OqsAlg) : Prop :=
  ∀ {c contextString tbs sk signature}, oqs.sigSign c contextString tbs sk = some signature →
    signature ≠ [] ∧ signature.length ≤ qs.lengthSignature

theorem read_stored_signature {buf first second after classical pq : Bytes}
    (stored : store buf sizeOfUint32 classical = some first)
    (storedLength : store first 0 (encodeUint32 classical.length) = some second)
    (storedPq : store second (sizeOfUint32 + classical.length) pq = some after) :
    read after 0 (sizeOfUint32 + classical.length + pq.length) =
      encodeUint32 classical.length ++ (classical ++ pq) := by
  have firstLength := Buffer.store_length stored
  have secondLength := Buffer.store_length storedLength
  obtain ⟨room, rfl⟩ := store_eq_some.mp stored
  obtain ⟨-, rfl⟩ := store_eq_some.mp storedLength
  obtain ⟨roomPq, rfl⟩ := store_eq_some.mp storedPq
  exact read_filled_consecutive (by omega)

section Signs

variable {evp : Evp κ γ} {oqs : Liboqs γ} {key : OqsxKey κ} {k : κ} {tbs contextString : Bytes}

theorem oqsSigSignDirectly_hybrid (hyb : key.keytype = .hybSig) (has : key.classicalPkey = some k) {sk : Bytes}
    (component : OqsxKey.load key.privkey (key.compPrivkey (key.numkeys - 1)) key.qsCtx.lengthSecretKey = some sk)
    (within : oqs.SignsWithin key.qsCtx) {coins : γ × γ} {buf : Bytes} {siglen : ℕ} {out : Signed}
    (signed : oqsSigSignDirectly evp oqs key contextString coins (some buf) siglen tbs = some out)
    (ok : out.rv = 1) :
    ∃ after classical pq, out.sig = some after ∧
      SignatureOf key.evpInfo key.qsCtx (read after 0 out.siglen) classical pq ∧
      evp.sign coins.1 k (classicalMd key.qsCtx.claimedNistLevel)
        (evp.digest (classicalMd key.qsCtx.claimedNistLevel) tbs) = some classical ∧
      oqs.sigSign coins.2 contextString tbs sk = some pq := by
  have present : key.privkey ≠ none := by
    intro absent
    rw [absent] at component
    cases component
  rw [oqsSigSignDirectly, if_neg present] at signed
  split at signed
  · cases signed
    cases ok
  · obtain ⟨⟨buf', index⟩, ranClassical, ranPq⟩ := Option.bind_eq_some_iff.mp signed
    rw [signClassical, has] at ranClassical
    dsimp only at ranClassical
    split at ranClassical
    · cases ranClassical
      cases ranPq
      cases ok
    · rename_i classical signedClassical
      split at ranClassical
      · cases ranClassical
        cases ranPq
        cases ok
      · rename_i fits
        obtain ⟨first, stored, ranClassical⟩ := Option.bind_eq_some_iff.mp ranClassical
        obtain ⟨second, storedLength, same⟩ := Option.bind_eq_some_iff.mp ranClassical
        cases same
        simp only [signPq, component, Option.bind_eq_bind, Option.bind_some] at ranPq
        split at ranPq
        · cases ranPq
          cases ok
        · rename_i pq signedPq
          obtain ⟨after, storedPq, same⟩ := Option.bind_eq_some_iff.mp ranPq
          cases same
          obtain ⟨pqPresent, pqFits⟩ := within signedPq
          exact ⟨after, classical, pq, rfl, ⟨read_stored_signature stored storedLength storedPq,
            not_lt.mp fits, pqPresent, pqFits⟩, signedClassical, signedPq⟩

theorem oqsSigSignDirectly_total (hyb : key.keytype = .hybSig) (has : key.classicalPkey = some k) {sk : Bytes}
    (component : OqsxKey.load key.privkey (key.compPrivkey (key.numkeys - 1)) key.qsCtx.lengthSecretKey = some sk)
    (within : oqs.SignsWithin key.qsCtx) (coins : γ × γ) {buf : Bytes} {siglen : ℕ}
    (room : siglen ≤ buf.length) :
    ∃ out, oqsSigSignDirectly evp oqs key contextString coins (some buf) siglen tbs = some out := by
  have present : key.privkey ≠ none := by
    intro absent
    rw [absent] at component
    cases component
  have front : sizeOfUint32 = 4 := rfl
  rw [oqsSigSignDirectly, if_neg present]
  split
  · exact ⟨_, rfl⟩
  · rename_i enough
    rw [maxSigLen, if_pos hyb] at enough
    rw [signClassical, has]
    dsimp only
    split
    · exact ⟨_, rfl⟩
    · rename_i classical signedClassical
      split
      · exact ⟨_, rfl⟩
      · rename_i fits
        have storedLength : (write buf sizeOfUint32 classical).length = buf.length := write_length (by omega)
        rw [store_eq (by omega), Option.bind_eq_bind, Option.bind_some,
          store_eq (by rw [encodeUint32_length]; omega), Option.bind_some, Option.pure_def, Option.bind_some,
          signPq, component, Option.bind_eq_bind, Option.bind_some]
        split
        · exact ⟨_, rfl⟩
        · rename_i pq signedPq
          have pqFits := (within signedPq).2
          rw [store_eq (by rw [write_length (by rw [encodeUint32_length]; omega)]; omega)]
          exact ⟨_, rfl⟩

end Signs

/-- `oqs_sig_digest_sign_init` and `oqs_sig_digest_verify_init`, and `oqs_sig_digest_signverify_update`. -/
inductive Call (κ : Type)
  | init (key : OqsxKey κ) (operation : Operation) (mdname : MdName)
  | update (data : Bytes)

def SigCtx.call (ctx : SigCtx κ) : Call κ → SigCtx κ
  | .init key operation mdname => (oqsSigDigestSignverifyInit ctx mdname key operation).2
  | .update data => (oqsSigDigestSignverifyUpdate ctx data).2

def contextAfter (calls : List (Call κ)) : SigCtx κ := calls.foldl SigCtx.call oqsSigNewctx

namespace Call

def data : Call κ → Bytes
  | .init _ _ _ => []
  | .update data => data

def keyAfter (before : Option (OqsxKey κ)) : Call κ → Option (OqsxKey κ)
  | .init key _ _ => some key
  | .update _ => before

/-- The digest that a call starts: it has to be known, and the key to be usable. -/
def starts : Call κ → Option Digest
  | .init key operation (.fetched md) =>
    if operation = .sign ∧ key.privkey = none ∨ operation = .verify ∧ key.pubkey = none then none else some md
  | _ => none

def forMessage (key : OqsxKey κ) (operation : Operation) (pieces : List Bytes) : List (Call κ) :=
  .init key operation .null :: pieces.map .update

end Call

/-- What calls have gathered: all their data, or the data since the last digest was started, for that
digest. -/
inductive Gathered : List (Call κ) → Option Digest → Bytes → Prop
  | all {calls : List (Call κ)} : (∀ c ∈ calls, c.starts = none) → Gathered calls none (calls.flatMap Call.data)
  | since {earlier later : List (Call κ)} {c : Call κ} {md : Digest} : c.starts = some md →
      (∀ c ∈ later, c.starts = none) → Gathered (earlier ++ c :: later) (some md) (later.flatMap Call.data)

def handled (digest : Option Digest) (message : Bytes) : Bytes := digest.elim message fun md => md message

theorem Gathered.call {calls : List (Call κ)} {digest : Option Digest} {message : Bytes} {c : Call κ}
    (gathered : Gathered calls digest message) (undigested : c.starts = none) :
    Gathered (calls ++ [c]) digest (message ++ c.data) := by
  have also {calls : List (Call κ)} (before : ∀ c ∈ calls, c.starts = none) :
      ∀ d ∈ calls ++ [c], d.starts = none := by
    intro d member
    rcases List.mem_append.mp member with earlier | last
    · exact before d earlier
    · rwa [List.mem_singleton.mp last]
  have data (calls : List (Call κ)) :
      calls.flatMap Call.data ++ c.data = (calls ++ [c]).flatMap Call.data := by
    rw [List.flatMap_append, List.flatMap_singleton]
  cases gathered with
  | all before =>
    rw [data]
    exact .all (also before)
  | since starts before =>
    rw [data, List.append_assoc, List.cons_append]
    exact .since starts (also before)

structure Collected (ctx : SigCtx κ) (key : Option (OqsxKey κ)) (digest : Option Digest)
    (message contextString : Bytes) : Prop where
  mdctx : ctx.mdctx = digest.map fun md => (md, message)
  mddata : digest = none → ctx.mddata.getD [] = message
  sig : ctx.sig = key
  contextString : ctx.contextString = contextString

theorem SigCtx.call_init (ctx : SigCtx κ) (key : OqsxKey κ) (operation : Operation) (mdname : MdName) :
    ctx.call (.init key operation mdname) =
      { ctx with
        sig := some key
        mdctx := ((Call.init key operation mdname).starts.map fun md => (md, [])).or ctx.mdctx } := by
  unfold SigCtx.call oqsSigDigestSignverifyInit oqsSigSignverifyInit
  by_cases refused : operation = .sign ∧ key.privkey = none ∨ operation = .verify ∧ key.pubkey = none
  · cases mdname <;> simp [Call.starts, refused]
  · cases mdname <;> simp [Call.starts, refused]

section Calls

variable {ctx : SigCtx κ} {before : Option (OqsxKey κ)} {digest : Option Digest} {message contextString : Bytes}

theorem Collected.call (collected : Collected ctx before digest message contextString) {c : Call κ}
    (undigested : c.starts = none) :
    Collected (ctx.call c) (c.keyAfter before) digest (message ++ c.data) contextString := by
  obtain ⟨mdctx, mddata, rfl, rfl⟩ := collected
  cases c with
  | init key operation mdname =>
    rw [SigCtx.call_init, undigested, Call.data, List.append_nil]
    exact ⟨mdctx, mddata, rfl, rfl⟩
  | update data =>
    rw [SigCtx.call, oqsSigDigestSignverifyUpdate, mdctx]
    cases digest with
    | some md => exact ⟨rfl, nofun, rfl, rfl⟩
    | none =>
      dsimp only [Option.map_none]
      rw [oqsSigCollectData, ← mddata rfl]
      split
      · rename_i collected present
        exact ⟨mdctx, fun _ => by rw [present]; rfl, rfl, rfl⟩
      · rename_i absent
        split
        · rename_i empty
          exact ⟨mdctx, fun _ => by rw [empty]; exact (List.append_nil _).symm, rfl, rfl⟩
        · exact ⟨mdctx, fun _ => by rw [absent]; rfl, rfl, rfl⟩

theorem Collected.start (collected : Collected ctx before digest message contextString) {c : Call κ}
    {md : Digest} (starts : c.starts = some md) :
    Collected (ctx.call c) (c.keyAfter before) (some md) [] contextString := by
  obtain ⟨-, -, rfl, rfl⟩ := collected
  cases c with
  | init key operation mdname =>
    rw [SigCtx.call_init, starts]
    exact ⟨rfl, nofun, rfl, rfl⟩
  | update data => cases starts

theorem Collected.calls (collected : Collected ctx before digest message contextString)
    {calls : List (Call κ)} (undigested : ∀ c ∈ calls, c.starts = none) :
    Collected (calls.foldl SigCtx.call ctx) (calls.foldl Call.keyAfter before) digest
      (message ++ calls.flatMap Call.data) contextString := by
  induction calls generalizing ctx before message with
  | nil => simpa using collected
  | cons c calls ih =>
    rw [List.foldl_cons, List.foldl_cons, List.flatMap_cons, ← List.append_assoc]
    exact ih (collected.call (undigested c List.mem_cons_self))
      fun c member => undigested c (List.mem_cons_of_mem _ member)

end Calls

theorem newctx_collected : Collected (oqsSigNewctx : SigCtx κ) none none [] [] := ⟨rfl, fun _ => rfl, rfl, rfl⟩

theorem gathered_collected (calls : List (Call κ)) :
    ∃ digest message, Gathered calls digest message ∧
      Collected (contextAfter calls) (calls.foldl Call.keyAfter none) digest message [] := by
  have noCalls : ∀ c ∈ ([] : List (Call κ)), c.starts = none := fun c member => absurd member List.not_mem_nil
  induction calls using List.reverseRecOn with
  | nil => exact ⟨none, [], .all noCalls, newctx_collected⟩
  | append_singleton calls c ih =>
    obtain ⟨digest, message, gathered, collected⟩ := ih
    rw [contextAfter, List.foldl_append, List.foldl_append]
    cases starts : c.starts with
    | none => exact ⟨digest, _, gathered.call starts, collected.call starts⟩
    | some md => exact ⟨some md, [], Gathered.since starts noCalls, collected.start starts⟩

theorem Gathered.collected {calls : List (Call κ)} {digest : Option Digest} {message : Bytes}
    (gathered : Gathered calls digest message) :
    Collected (contextAfter calls) (calls.foldl Call.keyAfter none) digest message [] := by
  cases gathered with
  | all undigested => exact newctx_collected.calls undigested
  | since starts undigested =>
    obtain ⟨_, _, -, collected⟩ := gathered_collected _
    rw [contextAfter, List.foldl_append, List.foldl_append, List.foldl_cons, List.foldl_cons]
    exact (collected.start starts).calls undigested

section Final

variable {evp : Evp κ γ} {oqs : Liboqs γ} {ctx : SigCtx κ} {key : OqsxKey κ} {digest : Option Digest}
  {message contextString : Bytes}

theorem Collected.tbs {key : Option (OqsxKey κ)} (collected : Collected ctx key digest message contextString) :
    ctx.tbs = handled digest message := by
  rw [SigCtx.tbs, collected.mdctx]
  cases digest with
  | none => exact collected.mddata rfl
  | some md => rfl

theorem Collected.signFinal (collected : Collected ctx (some key) digest message contextString)
    (coins : γ × γ) (sig : Option Bytes) (siglen : ℕ) :
    oqsSigDigestSignFinal evp oqs ctx coins sig siglen =
      oqsSigSignDirectly evp oqs key contextString coins sig siglen (handled digest message) := by
  rw [oqsSigDigestSignFinal, collected.sig, collected.contextString, collected.tbs, Option.bind_eq_bind,
    Option.bind_some]

theorem Collected.verifyFinal (collected : Collected ctx (some key) digest message contextString)
    (sig : Bytes) :
    oqsSigDigestVerifyFinal evp oqs ctx sig =
      oqsSigVerifyDirectly evp oqs key contextString sig (handled digest message) := by
  rw [oqsSigDigestVerifyFinal, collected.sig, collected.contextString, collected.tbs, Option.bind_eq_bind,
    Option.bind_some]

/-- Whatever the calls of a context, they gather something, and that is signed and verified. A further key does
not discard it, only a further digest does. -/
theorem final_handles_gathered (evp : Evp κ γ) (oqs : Liboqs γ) {calls : List (Call κ)} {key : OqsxKey κ}
    (keyed : calls.foldl Call.keyAfter none = some key) :
    (∃ digest message, Gathered calls digest message) ∧
      ∀ digest message, Gathered calls digest message →
        (∀ coins sig siglen, oqsSigDigestSignFinal evp oqs (contextAfter calls) coins sig siglen =
          oqsSigSignDirectly evp oqs key [] coins sig siglen (handled digest message)) ∧
        ∀ sig, oqsSigDigestVerifyFinal evp oqs (contextAfter calls) sig =
          oqsSigVerifyDirectly evp oqs key [] sig (handled digest message) := by
  constructor
  · obtain ⟨digest, message, gathered, -⟩ := gathered_collected calls
    exact ⟨digest, message, gathered⟩
  · intro digest message gathered
    have collected := gathered.collected
    rw [keyed] at collected
    exact ⟨collected.signFinal, collected.verifyFinal⟩

end Final

/-- A signature is the signing key followed by the first byte of the message. -/
def Liboqs.initialled : Liboqs UInt8 :=
  { Liboqs.masked with
    sigSign := fun _ _ tbs sk => some (sk.headD 0 :: tbs.take 1)
    sigVerify := fun _ tbs sig pk => sig == pk.headD 0 :: tbs.take 1 }

def oneByteSignature : Algorithm where
  primitive := .hybSig
  qsCtx := { oneByteAlgorithm.qsCtx with lengthSignature := 2 }
  evpInfo := { oneByteAlgorithm.evpInfo with lengthSignature := 2 }
  reverseShare := false

/-- Two keys for one message, and a digest that the call after it does not name again. -/
theorem final_handles_gathered_twoKeys :
    ∃ key other, oqsxGenkey Evp.product Liboqs.initialled oneByteSignature (3, 5) = some (some key) ∧
      oqsxGenkey Evp.product Liboqs.initialled oneByteSignature (7, 9) = some (some other) ∧
      oqsSigDigestSignFinal Evp.product Liboqs.initialled
        (contextAfter [.init key .sign .null, .update [1], .init other .sign .null, .update [2]])
        (0, 0) (some (List.replicate 8 0)) 8 = some ⟨1, 8, some [0, 0, 0, 2, 7, 1, 9, 1]⟩ ∧
      oqsSigDigestSignFinal Evp.product Liboqs.initialled
        (contextAfter [.init key .sign .null, .update [1], .init other .sign (.fetched (List.take 1)),
          .update [2], .init key .sign .null, .update [3]])
        (0, 0) (some (List.replicate 8 0)) 8 = some ⟨1, 8, some [0, 0, 0, 2, 3, 2, 5, 2]⟩ := by
  refine ⟨sigKey oneByteSignature (some (3 : UInt8)) [3] [3] [5] [5],
    sigKey oneByteSignature (some (7 : UInt8)) [7] [7] [9] [9], rfl, rfl, ?_, ?_⟩
  · have gathered {key other : OqsxKey UInt8} : Gathered
        [.init key .sign .null, .update [1], .init other .sign .null, .update [2]] none [1, 2] :=
      .all (by simp [Call.starts])
    rw [((final_handles_gathered Evp.product Liboqs.initialled rfl).2 _ _ gathered).1]
    decide +kernel
  · have gathered (key other : OqsxKey UInt8) (usable : other.privkey.isSome = true) : Gathered
        ([.init key .sign .null, .update [1]] ++ .init other .sign (.fetched (List.take 1)) ::
          [.update [2], .init key .sign .null, .update [3]])
        (some (List.take 1)) [2, 3] := by
      have present : other.privkey ≠ none := Option.isSome_iff_ne_none.mp usable
      exact .since (by simp [Call.starts, present]) (by simp [Call.starts])
    have handles := (final_handles_gathered Evp.product Liboqs.initialled rfl).2 _ _ (gathered
      (sigKey oneByteSignature (some 3) [3] [3] [5] [5]) (sigKey oneByteSignature (some 7) [7] [7] [9] [9]) rfl)
    refine (handles.1 (0, 0) (some (List.replicate 8 0)) 8).trans ?_
    decide +kernel

/-- A new context for one message, with which no digest is named. -/
def contextFor (key : OqsxKey κ) (operation : Operation) (pieces : List Bytes) : SigCtx κ :=
  contextAfter (Call.forMessage key operation pieces)

theorem contextFor_collected (key : OqsxKey κ) (operation : Operation) (pieces : List Bytes) :
    Collected (contextFor key operation pieces) (some key) none pieces.flatten [] := by
  have undigested : ∀ c ∈ Call.forMessage key operation pieces, c.starts = none := by
    intro c member
    rcases List.mem_cons.mp member with rfl | update
    · rfl
    · obtain ⟨data, -, rfl⟩ := List.mem_map.mp update
      rfl
  have collected := newctx_collected.calls undigested
  have data : (Call.forMessage key operation pieces).flatMap Call.data = pieces.flatten := by
    rw [Call.forMessage, List.flatMap_cons, List.flatMap_map]
    exact List.flatMap_id
  have last : (Call.forMessage key operation pieces).foldl Call.keyAfter none = some key := by
    rw [Call.forMessage, List.foldl_cons, List.foldl_map]
    exact List.foldl_fixed pieces
  rw [List.nil_append, data, last] at collected
  exact collected

end PqcLab.Oqs
