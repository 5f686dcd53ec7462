import PqcLab.Oqs.HybridKem

/-! Whatever a peer sends, a hybrid KEM stays within its buffers. -/

namespace PqcLab.Oqs

open Buffer

variable {κ γ : Type} {evp : Evp κ γ} {oqs : Liboqs γ} {alg : Algorithm} {key : OqsxKey κ}

theorem oqsEvpKemEncapsKeyslot_bounded (agrees : evp.Agrees key.evpInfo) (coin : γ) {slot : ℕ} {peer : Bytes}
    (component : OqsxKey.load key.pubkey (key.compPubkey slot) key.evpInfo.lengthPublicKey = some peer) :
    ∃ out, oqsEvpKemEncapsKeyslot evp key coin false slot = some out ∧
      out.ct.length ≤ key.evpInfo.lengthPublicKey ∧ out.secret.length ≤ key.evpInfo.kexLengthSecret := by
  rw [oqsEvpKemEncapsKeyslot, component]
  dsimp only [Option.bind_eq_bind, Option.bind_some]
  rw [if_neg Bool.false_ne_true]
  split
  · exact ⟨_, rfl, Nat.zero_le _, Nat.zero_le _⟩
  · split
    · exact ⟨_, rfl, Nat.zero_le _, Nat.zero_le _⟩
    · split
      · exact ⟨_, rfl, Nat.zero_le _, Nat.zero_le _⟩
      · rename_i secret derived
        have secretLength := agrees.secretLength derived
        split
        · exact ⟨_, rfl, Nat.zero_le _, secretLength.le⟩
        · rename_i exact
          exact ⟨_, rfl, (not_not.mp (not_or.mp exact).2).le, secretLength.le⟩

theorem oqsQsKemEncapsKeyslot_bounded (encapsulates : oqs.Encapsulates key.qsCtx) (coin : γ)
    {outlen secretlen slot : ℕ} {peer : Bytes}
    (component : OqsxKey.load key.pubkey (key.compPubkey slot) key.qsCtx.lengthPublicKey = some peer) :
    ∃ out, oqsQsKemEncapsKeyslot oqs key coin false outlen secretlen slot = some out ∧
      out.ct.length ≤ key.qsCtx.lengthCiphertext ∧ out.secret.length ≤ key.qsCtx.lengthSharedSecret ∧
      out.ret ≤ 1 := by
  have error : (-1 : ℤ) ≤ 1 := by decide
  have refused : (0 : ℤ) ≤ 1 := by decide
  rw [oqsQsKemEncapsKeyslot, component]
  dsimp only [Option.bind_eq_bind, Option.bind_some]
  rw [if_neg (load_pointer component), if_neg Bool.false_ne_true]
  split
  · exact ⟨_, rfl, Nat.zero_le _, Nat.zero_le _, error⟩
  · split
    · exact ⟨_, rfl, Nat.zero_le _, Nat.zero_le _, error⟩
    · split
      · exact ⟨_, rfl, Nat.zero_le _, Nat.zero_le _, refused⟩
      · rename_i ct secret made
        exact ⟨_, rfl, (encapsulates.ciphertextLength made).le, (encapsulates.sharedLength made).le,
          Int.le_refl 1⟩

theorem oqsEvpKemDecapsKeyslot_bounded (agrees : evp.Agrees key.evpInfo) {slot : ℕ} (ct : Bytes)
    {stored : Bytes}
    (component : OqsxKey.load key.privkey (key.compPrivkey slot) key.evpInfo.lengthPrivateKey = some stored)
    (enough : key.evpInfo.lengthPublicKey ≤ ct.length) :
    ∃ out, oqsEvpKemDecapsKeyslot evp key false ct slot = some out ∧
      out.secret.length ≤ key.evpInfo.kexLengthSecret := by
  have arrived : Buffer.load ct 0 key.evpInfo.lengthPublicKey = some _ := load_eq (by omega)
  rw [oqsEvpKemDecapsKeyslot, component]
  dsimp only [Option.bind_eq_bind, Option.bind_some]
  rw [if_neg Bool.false_ne_true, arrived]
  split
  · exact ⟨_, rfl, Nat.zero_le _⟩
  · dsimp only [Option.bind_some]
    split
    · exact ⟨_, rfl, Nat.zero_le _⟩
    · split
      · exact ⟨_, rfl, Nat.zero_le _⟩
      · rename_i secret derived
        exact ⟨_, rfl, (agrees.secretLength derived).le⟩

theorem oqsQsKemDecapsKeyslot_bounded (encapsulates : oqs.Encapsulates key.qsCtx) {outlen inlen slot : ℕ}
    (ct : Bytes) {stored : Bytes}
    (component : OqsxKey.load key.privkey (key.compPrivkey slot) key.qsCtx.lengthSecretKey = some stored)
    (enough : key.qsCtx.lengthCiphertext ≤ ct.length) :
    ∃ out, oqsQsKemDecapsKeyslot oqs key false outlen ct inlen slot = some out ∧
      out.secret.length ≤ key.qsCtx.lengthSharedSecret ∧ out.ret ≤ 1 := by
  have error : (-1 : ℤ) ≤ 1 := by decide
  have refused : (0 : ℤ) ≤ 1 := by decide
  have arrived : Buffer.load ct 0 key.qsCtx.lengthCiphertext = some _ := load_eq (by omega)
  rw [oqsQsKemDecapsKeyslot, component, arrived]
  dsimp only [Option.bind_eq_bind, Option.bind_some]
  rw [if_neg (load_pointer component), if_neg Bool.false_ne_true]
  split
  · exact ⟨_, rfl, Nat.zero_le _, refused⟩
  · split
    · exact ⟨_, rfl, Nat.zero_le _, error⟩
    · split
      · exact ⟨_, rfl, Nat.zero_le _, refused⟩
      · rename_i secret made
        exact ⟨_, rfl, (encapsulates.decapsLength made).le, Int.le_refl 1⟩

theorem store_both_bounded {buf first second : Bytes} (reversed : Bool) {m n : ℕ} (fits : first.length ≤ m)
    (fits' : second.length ≤ n) (room : m + n ≤ buf.length) :
    ∃ mid both, store buf (if reversed then n else 0) first = some mid ∧
      store mid (if reversed then 0 else m) second = some both ∧ mid.length = buf.length ∧
      both.length = buf.length ∧ mid.drop (m + n) = buf.drop (m + n) ∧ both.drop (m + n) = buf.drop (m + n) := by
  have roomFirst : (if reversed then n else 0) + first.length ≤ buf.length := by split <;> omega
  have same := write_length roomFirst
  have roomSecond : (if reversed then 0 else m) + second.length ≤
      (write buf (if reversed then n else 0) first).length := by
    rw [same]
    split <;> omega
  have kept : (write buf (if reversed then n else 0) first).drop (m + n) = buf.drop (m + n) :=
    drop_write (by split <;> omega) (by omega)
  refine ⟨_, _, store_eq roomFirst, store_eq roomSecond, same, (write_length roomSecond).trans same, kept, ?_⟩
  rw [drop_write (by split <;> omega) (by omega), kept]

theorem oqsHybKemDecaps_bounded (agrees : evp.Agrees key.evpInfo) (encapsulates : oqs.Encapsulates key.qsCtx)
    {stored sk : Bytes}
    (classicalPart : OqsxKey.load key.privkey (key.compPrivkey (classicalSlot key))
      key.evpInfo.lengthPrivateKey = some stored)
    (pqPart : OqsxKey.load key.privkey (key.compPrivkey (pqSlot key)) key.qsCtx.lengthSecretKey = some sk)
    (ct secret : Bytes) (secretlen : ℕ)
    (room : key.evpInfo.kexLengthSecret + key.qsCtx.lengthSharedSecret ≤ secret.length) :
    ∃ ret after, oqsHybKemDecaps evp oqs key (some secret) secretlen ct =
        some { ret, secretlen := key.evpInfo.kexLengthSecret + key.qsCtx.lengthSharedSecret,
               secret := some after } ∧
      (ret = 1 ∨ ret = oqsError) ∧ after.length = secret.length ∧
      after.drop (key.evpInfo.kexLengthSecret + key.qsCtx.lengthSharedSecret) =
        secret.drop (key.evpInfo.kexLengthSecret + key.qsCtx.lengthSharedSecret) ∧
      (ct.length ≠ key.evpInfo.lengthPublicKey + key.qsCtx.lengthCiphertext → ret = oqsError ∧ after = secret) := by
  have positive : ¬(1 : ℤ) ≤ 0 := by decide
  have query : oqsEvpKemDecapsKeyslot evp key true [] (classicalSlot key) =
      some { ret := 1, secretlen := key.evpInfo.kexLengthSecret, secret := [] } := rfl
  rw [oqsHybKemDecaps, query, oqsQsKemDecapsKeyslot_query (load_pointer pqPart)]
  dsimp only [Option.bind_eq_bind, Option.bind_some]
  rw [if_neg positive, if_neg positive]
  split
  · exact ⟨_, _, rfl, .inr rfl, rfl, rfl, fun _ => ⟨rfl, rfl⟩⟩
  · rename_i expected
    rw [not_not] at expected
    obtain ⟨classical, ranClassical, fits⟩ := oqsEvpKemDecapsKeyslot_bounded agrees
      (ct.drop (if key.reverseShare then key.qsCtx.lengthCiphertext else 0)) classicalPart
      (by rw [List.length_drop]; split <;> omega)
    obtain ⟨pq, ranPQ, fitsPQ, retPQ⟩ := oqsQsKemDecapsKeyslot_bounded encapsulates
      (ct.drop (if key.reverseShare then 0 else key.evpInfo.lengthPublicKey)) pqPart
      (by rw [List.length_drop]; split <;> omega)
    obtain ⟨mid, both, storedClassical, storedPQ, midLength, bothLength, midKept, bothKept⟩ :=
      store_both_bounded key.reverseShare fits fitsPQ room
    rw [hybDecapsInto, ranClassical]
    dsimp only [Option.bind_eq_bind, Option.bind_some]
    rw [storedClassical, Option.bind_some]
    split
    · exact ⟨_, _, rfl, .inr rfl, midLength, midKept, fun other => absurd expected.symm other⟩
    · rw [ranPQ, Option.bind_some, storedPQ, Option.bind_some]
      split
      · exact ⟨_, _, rfl, .inr rfl, bothLength, bothKept, fun other => absurd expected.symm other⟩
      · rename_i succeeded
        exact ⟨_, _, rfl, .inl (by omega), bothLength, bothKept, fun other => absurd expected.symm other⟩

theorem oqsHybKemEncaps_bounded (agrees : evp.Agrees key.evpInfo) (encapsulates : oqs.Encapsulates key.qsCtx)
    {peer peerPQ : Bytes}
    (classicalPart : OqsxKey.load key.pubkey (key.compPubkey (classicalSlot key)) key.evpInfo.lengthPublicKey =
      some peer)
    (pqPart : OqsxKey.load key.pubkey (key.compPubkey (pqSlot key)) key.qsCtx.lengthPublicKey = some peerPQ)
    (coins : γ × γ) (ct secret : Bytes) (ctlen secretlen : ℕ)
    (room : key.evpInfo.lengthPublicKey + key.qsCtx.lengthCiphertext ≤ ct.length)
    (roomSecret : key.evpInfo.kexLengthSecret + key.qsCtx.lengthSharedSecret ≤ secret.length) :
    ∃ ret ctAfter secretAfter,
      oqsHybKemEncaps evp oqs key coins (some ct) (some secret) ctlen secretlen =
        some { ret, ctlen := key.evpInfo.lengthPublicKey + key.qsCtx.lengthCiphertext,
               secretlen := key.evpInfo.kexLengthSecret + key.qsCtx.lengthSharedSecret,
               ct := some ctAfter, secret := some secretAfter } ∧
      (ret = 1 ∨ ret = oqsError) ∧ ctAfter.length = ct.length ∧ secretAfter.length = secret.length ∧
      ctAfter.drop (key.evpInfo.lengthPublicKey + key.qsCtx.lengthCiphertext) =
        ct.drop (key.evpInfo.lengthPublicKey + key.qsCtx.lengthCiphertext) ∧
      secretAfter.drop (key.evpInfo.kexLengthSecret + key.qsCtx.lengthSharedSecret) =
        secret.drop (key.evpInfo.kexLengthSecret + key.qsCtx.lengthSharedSecret) := by
  have positive : ¬(1 : ℤ) ≤ 0 := by decide
  have query : oqsEvpKemEncapsKeyslot evp key coins.1 true (classicalSlot key) =
      some { ret := 1, ctlen := key.evpInfo.lengthPublicKey, secretlen := key.evpInfo.kexLengthSecret,
             ct := [], secret := [] } := rfl
  obtain ⟨classical, ranClassical, fitsCt, fitsSecret⟩ :=
    oqsEvpKemEncapsKeyslot_bounded agrees coins.1 classicalPart
  obtain ⟨pq, ranPQ, fitsCtPQ, fitsSecretPQ, retPQ⟩ :=
    oqsQsKemEncapsKeyslot_bounded encapsulates coins.2 pqPart
  obtain ⟨ctMid, ctBoth, storedCt, storedCtPQ, ctMidLength, ctBothLength, ctMidKept, ctBothKept⟩ :=
    store_both_bounded key.reverseShare fitsCt fitsCtPQ room
  obtain ⟨secretMid, secretBoth, storedSecret, storedSecretPQ, midLength, bothLength, midKept, bothKept⟩ :=
    store_both_bounded key.reverseShare fitsSecret fitsSecretPQ roomSecret
  rw [oqsHybKemEncaps, query, oqsQsKemEncapsKeyslot_query (load_pointer pqPart)]
  dsimp only [Option.bind_eq_bind, Option.bind_some]
  rw [if_neg positive, if_neg positive, hybEncapsInto, ranClassical]
  dsimp only [Option.bind_eq_bind, Option.bind_some]
  rw [storedCt, Option.bind_some, storedSecret, Option.bind_some]
  split
  · exact ⟨_, _, _, rfl, .inr rfl, ctMidLength, midLength, ctMidKept, midKept⟩
  · rw [ranPQ, Option.bind_some, storedCtPQ, Option.bind_some, storedSecretPQ, Option.bind_some]
    split
    · exact ⟨_, _, _, rfl, .inr rfl, ctBothLength, bothLength, ctBothKept, bothKept⟩
    · rename_i succeeded
      exact ⟨_, _, _, rfl, .inl (by omega), ctBothLength, bothLength, ctBothKept, bothKept⟩

theorem exists_join (reversed : Bool) {whole : Bytes} {m n : ℕ} (sized : whole.length = m + n) :
    ∃ parts : Bytes × Bytes, parts.1.length = m ∧ parts.2.length = n ∧ join reversed parts = whole := by
  cases reversed
  · refine ⟨(whole.take m, whole.drop m), ?_, ?_, List.take_append_drop m whole⟩
    · rw [List.length_take]
      omega
    · rw [List.length_drop]
      omega
  · refine ⟨(whole.drop n, whole.take n), ?_, ?_, List.take_append_drop n whole⟩
    · rw [List.length_drop]
      omega
    · rw [List.length_take]
      omega

theorem load_privkey (alg : Algorithm) (pkey : Option κ) (pubkey : Bytes) {privkey : Bytes}
    (sized : privkey.length =
      sizeOfUint32 + alg.qsCtx.lengthSecretKey + alg.evpInfo.lengthPrivateKey + sizeOfUint32) :
    (∃ stored, OqsxKey.load (some privkey)
      ((kemKey alg pkey pubkey privkey).compPrivkey (if alg.reversed then 1 else 0))
        alg.evpInfo.lengthPrivateKey = some stored) ∧
      ∃ stored, OqsxKey.load (some privkey)
        ((kemKey alg pkey pubkey privkey).compPrivkey (if alg.reversed then 0 else 1))
          alg.qsCtx.lengthSecretKey = some stored := by
  rw [kemKey_compPrivkey_classical, kemKey_compPrivkey_pq, classicalOffset, pqOffset]
  exact ⟨⟨_, load_eq (by split <;> omega)⟩, _, load_eq (by split <;> omega)⟩

/-- Whatever a peer sends, as a ciphertext or as a share: bytes of another length are refused and change
nothing, and the others are handled within the buffers of the key and, up to the reported lengths, of the
caller. -/
theorem hybrid_peer_input_bounded (hyb : alg.primitive.isHybKem) (agrees : evp.Agrees alg.evpInfo)
    (encapsulates : oqs.Encapsulates alg.qsCtx) {c d : γ × γ} {client own : OqsxKey κ}
    (generated : oqsxGenkey evp oqs alg c = some (some client))
    (generatedOwn : oqsxGenkey evp oqs alg d = some (some own)) :
    (∀ ct secret secretlen,
      alg.evpInfo.kexLengthSecret + alg.qsCtx.lengthSharedSecret ≤ secret.length →
      ∃ ret after, oqsHybKemDecaps evp oqs client (some secret) secretlen ct =
          some { ret, secretlen := alg.evpInfo.kexLengthSecret + alg.qsCtx.lengthSharedSecret,
                 secret := some after } ∧
        (ret = 1 ∨ ret = oqsError) ∧ after.length = secret.length ∧
        after.drop (alg.evpInfo.kexLengthSecret + alg.qsCtx.lengthSharedSecret) =
          secret.drop (alg.evpInfo.kexLengthSecret + alg.qsCtx.lengthSharedSecret) ∧
        (ct.length ≠ alg.evpInfo.lengthPublicKey + alg.qsCtx.lengthCiphertext →
          ret = oqsError ∧ after = secret)) ∧
    ∀ share,
      (share.length ≠ alg.evpInfo.lengthPublicKey + alg.qsCtx.lengthPublicKey →
        setEncodedPublicKey own share = some (0, own)) ∧
      (share.length = alg.evpInfo.lengthPublicKey + alg.qsCtx.lengthPublicKey →
        ∃ server, setEncodedPublicKey own share = some (1, server) ∧
          ∀ coins ct secret ctlen secretlen,
            alg.evpInfo.lengthPublicKey + alg.qsCtx.lengthCiphertext ≤ ct.length →
            alg.evpInfo.kexLengthSecret + alg.qsCtx.lengthSharedSecret ≤ secret.length →
            ∃ ret ctAfter secretAfter,
              oqsHybKemEncaps evp oqs server coins (some ct) (some secret) ctlen secretlen =
                some { ret, ctlen := alg.evpInfo.lengthPublicKey + alg.qsCtx.lengthCiphertext,
                       secretlen := alg.evpInfo.kexLengthSecret + alg.qsCtx.lengthSharedSecret,
                       ct := some ctAfter, secret := some secretAfter } ∧
              (ret = 1 ∨ ret = oqsError) ∧ ctAfter.length = ct.length ∧ secretAfter.length = secret.length ∧
              ctAfter.drop (alg.evpInfo.lengthPublicKey + alg.qsCtx.lengthCiphertext) =
                ct.drop (alg.evpInfo.lengthPublicKey + alg.qsCtx.lengthCiphertext) ∧
              secretAfter.drop (alg.evpInfo.kexLengthSecret + alg.qsCtx.lengthSharedSecret) =
                secret.drop (alg.evpInfo.kexLengthSecret + alg.qsCtx.lengthSharedSecret)) := by
  constructor
  · obtain ⟨pubkey, privkey, laidOut, -, sized⟩ := genkey_hybKem_laidOut hyb generated
    obtain ⟨⟨_, classicalPart⟩, _, pqPart⟩ := load_privkey alg client.classicalPkey pubkey sized
    intro ct secret secretlen room
    rw [laidOut]
    exact oqsHybKemDecaps_bounded agrees encapsulates classicalPart pqPart ct secret secretlen room
  · obtain ⟨pubkey, privkey, laidOut, sized, -⟩ := genkey_hybKem_laidOut hyb generatedOwn
    intro share
    constructor
    · intro other
      have kemType : own.keytype.isHybKem := by
        rw [laidOut]
        exact hyb
      have unexpected : share.length ≠ own.pubkeylen - sizeOfUint32 := by
        rw [laidOut]
        show share.length ≠ sizeOfUint32 + alg.qsCtx.lengthPublicKey + alg.evpInfo.lengthPublicKey - sizeOfUint32
        omega
      rw [setEncodedPublicKey, if_pos kemType, if_pos unexpected]
    · intro expected
      obtain ⟨parts, first, second, rfl⟩ := exists_join alg.reversed expected
      obtain ⟨server, received, sameInfo, sameAlg, -, classicalPart, pqPart⟩ :=
        setEncodedPublicKey_kemKey hyb own.classicalPkey privkey sized first second
      refine ⟨server, ?_, ?_⟩
      · rw [laidOut]
        exact received
      · intro coins ct secret ctlen secretlen room roomSecret
        rw [← sameInfo] at classicalPart room roomSecret ⊢
        rw [← sameAlg] at pqPart room roomSecret ⊢
        exact oqsHybKemEncaps_bounded (sameInfo ▸ agrees) (sameAlg ▸ encapsulates) classicalPart pqPart coins ct
          secret ctlen secretlen room roomSecret

theorem hybrid_peer_input_bounded_oneByte :
    ∃ client, oqsxGenkey Evp.product Liboqs.masked oneByteAlgorithm (3, 5) = some (some client) ∧
      ∀ ct secret secretlen, 2 ≤ secret.length →
        ∃ ret after, oqsHybKemDecaps Evp.product Liboqs.masked client (some secret) secretlen ct =
            some { ret, secretlen := 2, secret := some after } ∧
          (ret = 1 ∨ ret = oqsError) ∧ after.length = secret.length ∧ after.drop 2 = secret.drop 2 ∧
          (ct.length ≠ 2 → ret = oqsError ∧ after = secret) := by
  have generated : oqsxGenkey Evp.product Liboqs.masked oneByteAlgorithm (3, 5) =
      some (some (kemKey oneByteAlgorithm (some 3) [0, 0, 0, 1, 5, 3] [0, 0, 0, 1, 5, 3, 0, 0, 0, 0])) := rfl
  exact ⟨_, generated, (hybrid_peer_input_bounded rfl product_agrees masked_encapsulates generated generated).1⟩

/-- Where OpenSSL cannot generate the classical key pair, whatever liboqs would do, the caller still gets a
key; all of it is zero, and so is its share, which any other key accepts. -/
theorem classical_failure_unreported (hyb : alg.primitive.isHybKem) {coins : γ × γ}
    (failed : evp.keygen coins.1 = none) :
    ∃ key, oqsxGenkey evp oqs alg coins = some (some key) ∧ key.classicalPkey = none ∧
      key.pubkey = some (List.replicate
        (sizeOfUint32 + alg.qsCtx.lengthPublicKey + alg.evpInfo.lengthPublicKey) 0) ∧
      key.privkey = some (List.replicate
        (sizeOfUint32 + alg.qsCtx.lengthSecretKey + alg.evpInfo.lengthPrivateKey + sizeOfUint32) 0) ∧
      getEncodedPublicKey key =
        some (List.replicate (alg.evpInfo.lengthPublicKey + alg.qsCtx.lengthPublicKey) 0) ∧
      ∀ d own, oqsxGenkey evp oqs alg d = some (some own) →
        ∃ server, setEncodedPublicKey own
          (List.replicate (alg.evpInfo.lengthPublicKey + alg.qsCtx.lengthPublicKey) 0) = some (1, server) := by
  refine ⟨kemKey alg none
    (List.replicate (sizeOfUint32 + alg.qsCtx.lengthPublicKey + alg.evpInfo.lengthPublicKey) 0)
    (List.replicate (sizeOfUint32 + alg.qsCtx.lengthSecretKey + alg.evpInfo.lengthPrivateKey + sizeOfUint32)
      0), ?_, rfl, rfl, rfl, ?_, ?_⟩
  · rw [oqsxGenkey, keyGen_hybKem hyb, oqsxKeyGenEvpKeyKem, genEvpKey, failed]
    rfl
  · rw [getEncodedPublicKey_hyb hyb, load_eq (by rw [List.length_replicate]; omega), Buffer.read,
      List.drop_replicate, List.take_replicate]
    congr 2
    omega
  · intro d own generatedOwn
    obtain ⟨pubkey, privkey, laidOut, sized, -⟩ := genkey_hybKem_laidOut hyb generatedOwn
    have whole : (List.replicate (alg.evpInfo.lengthPublicKey + alg.qsCtx.lengthPublicKey) (0 : UInt8)).length =
        alg.evpInfo.lengthPublicKey + alg.qsCtx.lengthPublicKey := List.length_replicate
    obtain ⟨parts, first, second, same⟩ := exists_join alg.reversed whole
    obtain ⟨server, received, -⟩ :=
      setEncodedPublicKey_kemKey hyb own.classicalPkey privkey sized first second
    rw [← same, laidOut]
    exact ⟨server, received⟩

/-- No entropy: the share of the key is zero. -/
theorem classical_failure_unreported_oneByte :
    ∃ key, oqsxGenkey { Evp.product with keygen := fun _ => none } Liboqs.masked oneByteAlgorithm (3, 5) =
        some (some key) ∧
      getEncodedPublicKey key = some [0, 0] := by
  have failed : { Evp.product with keygen := fun _ => none }.keygen (3, 5).1 = none := rfl
  have hybrid : oneByteAlgorithm.primitive.isHybKem := rfl
  obtain ⟨key, generated, -, -, -, share, -⟩ :=
    @classical_failure_unreported _ _ _ Liboqs.masked _ hybrid (3, 5) failed
  exact ⟨key, generated, share⟩

end PqcLab.Oqs
