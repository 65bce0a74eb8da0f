import Leyu.Blufi.Frame

/-!
# The key of a session

`blufi_security.c`: the phone announces the length of the parameters of a key exchange and sends
them, and gets the public key of the device back. A negotiation may fail at many places. The
cryptography itself comes from outside; of it only the length of what is decrypted is known.
-/

namespace Leyu

open Framework

/-- What mbedTLS and the ROM compute, with their contexts for the key exchange and for the cipher.
A call that fails may leave its context changed. -/
structure BlufiCrypto (δ κ : Type) where
  dhmInit : δ
  dhmReadParams : δ → Bytes → Bool × δ
  dhmGetLen : δ → Nat
  dhmMakePublic : δ → (xSize olen : Nat) → (random : Bytes) → Bool × δ × Bytes
  dhmCalcSecret : δ → (outputSize : Nat) → (random : Bytes) → Bool × δ × Bytes
  md5 : Bytes → Option Bytes
  aesInit : κ
  aesSetkeyEnc : Bytes → κ
  /-- `mbedtls_aes_crypt_cfb128` with `MBEDTLS_AES_DECRYPT`, from the start of a block on. -/
  aesDecryptCfb128 : κ → (iv : Bytes) → Bytes → Option Bytes
  length_decrypt : ∀ key iv xs ys, aesDecryptCfb128 key iv xs = some ys → ys.length = xs.length
  espCrc16Be : UInt16 → Bytes → UInt16

/-- `struct blufi_security`, without `iv`, which stays zero; of `dh_param` its size, of `share_key`
the part that is used. -/
structure BlufiSecurity (δ κ : Type) where
  selfPublicKey : Bytes
  shareKey : Bytes
  psk : Bytes
  dhParam : Option Nat
  dhParamLen : Nat
  dhm : δ
  aes : κ
  /-- What is copied to `dh_param` fits. -/
  fits : ∀ size ∈ dhParam, size = dhParamLen

/-- What one call of the negotiation finds: memory, and what `esp_fill_random` gives. -/
structure NegotiateWorld where
  memory : Bool
  publicRandom : Bytes
  secretRandom : Bytes

/-- What is left by one call of the negotiation, the error it reports and `output_data`. -/
structure Negotiation (δ κ : Type) where
  security : Option (BlufiSecurity δ κ)
  error : Option BlufiError
  output : Option Bytes

variable {δ κ : Type}

namespace BlufiSecurity

/-- `blufi_security_init`, when there is memory. -/
def init (m : BlufiCrypto δ κ) : BlufiSecurity δ κ where
  selfPublicKey := List.replicate 128 0
  shareKey := []
  psk := List.replicate 16 0
  dhParam := none
  dhParamLen := 0
  dhm := m.dhmInit
  aes := m.aesInit
  fits := by simp

def fails (sec : BlufiSecurity δ κ) (state : BlufiError) : Negotiation δ κ :=
  ⟨some sec, some state, none⟩

/-- `SEC_TYPE_DH_PARAM_LEN` -/
def paramLen (w : NegotiateWorld) (hi lo : UInt8) (sec : BlufiSecurity δ κ) : Negotiation δ κ :=
  let size := hi.toNat * 256 + lo.toNat
  if w.memory then
    ⟨some { sec with dhParam := some size, dhParamLen := size, fits := by simp }, none, none⟩
  else { sec with dhParam := none, dhParamLen := 0, fits := by simp }.fails .dhMalloc

/-- From the parameters that have been read to the key. -/
def makeKey (m : BlufiCrypto δ κ) (w : NegotiateWorld) (sec : BlufiSecurity δ κ) :
    Negotiation δ κ :=
  let dhmLen := m.dhmGetLen sec.dhm
  if 128 < dhmLen then sec.fails .dhParam
  else
    let made := m.dhmMakePublic sec.dhm dhmLen 128 w.publicRandom
    let sec := { sec with dhm := made.2.1, selfPublicKey := made.2.2 }
    if made.1 then
      let secret := m.dhmCalcSecret sec.dhm 128 w.secretRandom
      let sec := { sec with dhm := secret.2.1, shareKey := secret.2.2 }
      if secret.1 then
        match m.md5 sec.shareKey with
        | none => sec.fails .calcMd5
        | some psk =>
            ⟨some { sec with psk := psk, aes := m.aesSetkeyEnc psk }, none,
              some (sec.selfPublicKey.take dhmLen)⟩
      else sec.fails .dhParam
    else sec.fails .makePublic

/-- `SEC_TYPE_DH_PARAM_DATA`. Parameters that cannot be read leave `dh_param` where it is. -/
def paramData (m : BlufiCrypto δ κ) (w : NegotiateWorld) (param : Bytes)
    (sec : BlufiSecurity δ κ) : Negotiation δ κ :=
  if sec.dhParam = none then sec.fails .dhParam
  else if param.length < sec.dhParamLen then sec.fails .dhParam
  else
    let read := m.dhmReadParams sec.dhm (param.take sec.dhParamLen)
    if read.1 then makeKey m w { sec with dhm := read.2, dhParam := none, fits := by simp }
    else { sec with dhm := read.2 }.fails .readParam

end BlufiSecurity

/-- The key and the public key that the exchange comes to when nothing fails. -/
def BlufiCrypto.exchange (m : BlufiCrypto δ κ) (w : NegotiateWorld) (dhm : δ) (param : Bytes) :
    Option (Bytes × Bytes) :=
  let read := m.dhmReadParams dhm param
  let dhmLen := m.dhmGetLen read.2
  let made := m.dhmMakePublic read.2 dhmLen 128 w.publicRandom
  let secret := m.dhmCalcSecret made.2.1 128 w.secretRandom
  if read.1 ∧ dhmLen ≤ 128 ∧ made.1 ∧ secret.1 then
    (m.md5 secret.2.2).map fun psk => (psk, made.2.2.take dhmLen)
  else none

/-- `blufi_dh_negotiate_data_handler` -/
def blufiDhNegotiateDataHandler (m : BlufiCrypto δ κ) (w : NegotiateWorld)
    (security : Option (BlufiSecurity δ κ)) (data : Bytes) : Negotiation δ κ :=
  match data with
  | type :: b1 :: b2 :: rest =>
      match security with
      | none => ⟨none, some .initSecurity, none⟩
      | some sec =>
          match type with
          | 0x00 => sec.paramLen w b1 b2
          | 0x01 => sec.paramData m w (b1 :: b2 :: rest)
          -- `SEC_TYPE_DH_P`, `SEC_TYPE_DH_G`, `SEC_TYPE_DH_PUBLIC` and what is unknown
          | _ => ⟨some sec, none, none⟩
  | _ => ⟨security, some .dataFormat, none⟩

/-- `blufi_aes_decrypt` and `blufi_crc_checksum` under the key there is. -/
def blufiCallbacks (m : BlufiCrypto δ κ) (key : Option κ) : BlufiCallbacks where
  decryptFunc := some
    { run := fun iv8 data => key.bind fun aes =>
        m.aesDecryptCfb128 aes (iv8 :: List.replicate 15 0) data
      length_eq := by
        intro iv8 xs ys h
        obtain ⟨aes, -, hrun⟩ := Option.bind_eq_some_iff.mp h
        exact m.length_decrypt _ _ _ _ hrun }
  checksumFunc := some fun _ data => m.espCrc16Be 0 data

private theorem BlufiSecurity.aes_makeKey {m : BlufiCrypto δ κ} {w : NegotiateWorld}
    {sec : BlufiSecurity δ κ} (h : (sec.makeKey m w).output = none) :
    (sec.makeKey m w).security.map aes = some sec.aes := by
  rw [makeKey] at h ⊢
  by_cases hsize : 128 < m.dhmGetLen sec.dhm
  · rw [if_pos hsize]
    rfl
  · simp only [hsize, if_false] at h ⊢
    split
    · next hmade =>
      simp only [hmade, if_true] at h
      split
      · next hsecret =>
        simp only [hsecret, if_true] at h
        split
        · rfl
        · next psk hpsk =>
          simp only [hpsk] at h
          cases h
      · rfl
    · rfl

private theorem BlufiSecurity.aes_paramData {m : BlufiCrypto δ κ} {w : NegotiateWorld}
    {param : Bytes} {sec : BlufiSecurity δ κ} (h : (sec.paramData m w param).output = none) :
    (sec.paramData m w param).security.map aes = some sec.aes := by
  rw [paramData] at h ⊢
  by_cases hparam : sec.dhParam = none
  · rw [if_pos hparam]
    rfl
  · rw [if_neg hparam] at h ⊢
    by_cases hshort : param.length < sec.dhParamLen
    · rw [if_pos hshort]
      rfl
    · simp only [hshort, if_false] at h ⊢
      split
      · next hread =>
        simp only [hread, if_true] at h
        exact aes_makeKey h
      · rfl

theorem BlufiSecurity.paramData_made {m : BlufiCrypto δ κ} {w : NegotiateWorld} {param : Bytes}
    {sec : BlufiSecurity δ κ} {size : Nat} (hparam : sec.dhParam = some size)
    (hsize : size ≤ param.length) {psk publicKey : Bytes}
    (hmade : m.exchange w sec.dhm (param.take size) = some (psk, publicKey)) :
    (sec.paramData m w param).output = some publicKey ∧
      (sec.paramData m w param).security.map aes = some (m.aesSetkeyEnc psk) := by
  obtain rfl := sec.fits size hparam
  rw [BlufiCrypto.exchange] at hmade
  split at hmade
  · next hall =>
    obtain ⟨hread, hshort, hpublic, hsecret⟩ := hall
    obtain ⟨psk', hmd5, hpair⟩ := Option.map_eq_some_iff.mp hmade
    obtain ⟨rfl, rfl⟩ := Prod.mk.inj hpair
    rw [paramData, if_neg (by simp [hparam]), if_neg (by omega)]
    simp only [hread, if_true, makeKey, Nat.not_lt.mpr hshort, if_false, hpublic, hsecret, hmd5]
    exact ⟨trivial, rfl⟩
  · cases hmade

theorem key_of_unanswered {m : BlufiCrypto δ κ} {w : NegotiateWorld}
    {security : Option (BlufiSecurity δ κ)} {data : Bytes}
    (h : (blufiDhNegotiateDataHandler m w security data).output = none) :
    (blufiDhNegotiateDataHandler m w security data).security.map BlufiSecurity.aes =
      security.map BlufiSecurity.aes := by
  rcases data with _ | ⟨type, _ | ⟨b1, _ | ⟨b2, rest⟩⟩⟩
  · rfl
  · rfl
  · rfl
  · cases security with
    | none => rfl
    | some sec =>
      simp only [blufiDhNegotiateDataHandler] at h ⊢
      split
      · rw [BlufiSecurity.paramLen]
        split <;> rfl
      · exact BlufiSecurity.aes_paramData h
      · rfl

end Leyu
