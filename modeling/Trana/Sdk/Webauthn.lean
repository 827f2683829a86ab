import Trana.Lib.Der
import Trana.Sdk.Buffers

/-!
# SDK: signatures and keys of an authenticator

`core/webauthn.ts` and `react/webauthn.ts`, each with its own copy: from the DER
signature of an assertion to the compact low-S form the precompile takes, and
from the SPKI of a new credential to the compressed key the registry stores.

* `Core.derToCompact`, `React.derToCompact` — the two parsers, offset by offset;
  a missing byte is `undefined`, and its length `NaN`.
* `Core.derToCompact_eq`, `React.derToCompact_eq` — what a signature of two DER
  integers comes out as.
* `Core.normalizeLowS_eq`, `React.lowS_eq` — the two normalisations, the first by
  a detour through hexadecimal digits.
* `Core.spkiToCompressedKey_eq_ok`, `React.extractPubkeyFromAttestation_eq_ok` —
  the point is taken from behind the first `0x04`, whatever that is.

Errors keep their class, code and message. `BigInt`s are integers, exact; the
numbers are offsets and lengths. The two copies agree on what an authenticator
returns, which is what `Trana.Security.LowS` and `Trana.Security.PublicKey` make
of them.
-/

namespace Trana.Sdk

open Trana.Lib Trana.Sdk.Js

/-! ## The curve order -/

namespace P256

/-- The order of P-256, -/
def N : Nat := 0xffffffff00000000ffffffffffffffffbce6faada7179e84f3b9cac2fc632551

/-- and half of it, rounded down. -/
def halfN : Nat := N >>> 1

/-- The order is odd. -/
theorem N_eq : N = 2 * halfN + 1 := by decide +kernel

/-- It takes 32 bytes. -/
theorem N_lt : N < 256 ^ 32 := by decide +kernel

end P256

/-- `BigInt("0x" + hex)` -/
def bigInt (hex : String) : JsResult Nat :=
  match ofHex? hex with
  | some n => .ok n
  | none => .error .syntaxError

/-- The hexadecimal digits of bytes are read as the number they spell. -/
theorem bigInt_hexEncode {bs : Bytes} (h : bs ≠ []) : bigInt (hexEncode bs) = .ok (beNat bs) := by
  rw [bigInt, ofHex?_hexEncode h]

namespace Core

/-! ## `core/webauthn.ts` -/

/-- `new TranaWebAuthnError(code, message)` -/
def webAuthnError (code message : String) : Thrown := .error "TranaWebAuthnError" code message

/-- Extract a 33-byte compressed P-256 public key from an SPKI DER buffer. -/
def spkiToCompressedKey (spki : Bytes) : JsResult Bytes :=
  match (List.range (spki.length + 1 - 65)).find? fun i => spki[i]? == some 0x04 with
  -- the last place a point could start is 65 bytes before the end
  | some i => do
    let x := sliceBytes spki (i + 1) (i + 33)
    let y := sliceBytes spki (i + 33) (i + 65)
    let compressed := zeros 33
    let compressed := compressed.set 0 (if y.getD 31 0 &&& 1 ≠ 0 then 0x03 else 0x02)
    set compressed x 1
  | none => .error (webAuthnError "unsupported"
      "SPKI: P-256 uncompressed point not found — is this a P-256 key?")

/-- Convert a DER-encoded ECDSA signature to 64-byte compact (r‖s). -/
def derToCompact (der : Bytes) : JsResult Bytes := do
  orThrow (elem der (some 0) = some 0x30)
    (webAuthnError "invalid_signature" "DER: expected SEQUENCE (0x30)")
  let offset : Index := some 2 -- skip 0x30 + total-length
  orThrow (elem der offset = some 0x02)
    (webAuthnError "invalid_signature" "DER: expected INTEGER for r")
  let offset := plus offset (some 1)
  let rLen := asNumber (elem der offset)
  let offset := plus offset (some 1)
  let r := slice der offset (plus offset rLen)
  let offset := plus offset rLen
  orThrow (elem der offset = some 0x02)
    (webAuthnError "invalid_signature" "DER: expected INTEGER for s")
  let offset := plus offset (some 1)
  let sLen := asNumber (elem der offset)
  let offset := plus offset (some 1)
  let s := slice der offset (plus offset sLen)
  let compact := zeros 64
  let rData := if r.length > 32 then r.drop (r.length - 32) else r
  let sData := if s.length > 32 then s.drop (s.length - 32) else s
  let compact ← set compact rData (32 - rData.length)
  set compact sData (64 - sData.length)

/-- Two digits for each byte, read as one number. -/
def hexToBigInt (bytes : Bytes) : JsResult Nat :=
  bigInt (bytes.foldl (fun hex b => hex ++ padStart 2 (toHex b.toNat)) "")

/-- Normalize a compact P-256 signature to low-S form. -/
def normalizeLowS (compact : Bytes) : JsResult Bytes := do
  let s ← hexToBigInt (compact.drop 32)
  if s ≤ P256.halfN then .ok compact
  else do
    let sLow : Int := P256.N - s
    let out := zeros 64
    let out ← set out (compact.take 32) 0
    let hex := padStart 64 (toHexInt sLow)
    .ok (fill out 32 32 fun i => toUint8 (parseHex (pairAt hex.toList i)))

end Core

namespace React

/-! ## `react/webauthn.ts` -/

/-- Zeros in front, up to a length. -/
def padLeft (bytes : Bytes) (length : Nat) : JsResult Bytes :=
  set (zeros length) bytes (length - bytes.length)

/-- `rStart`, `rSize` and `r`, and the same for `s`. -/
def integerAt (der : Bytes) (i len : Index) : Bytes :=
  let start := if len.any (· > 32) then plus i (some 1) else i -- skip leading 0x00 when DER-padded
  let size := if len.any (· > 32) then some 32 else len
  slice der start (plus start size)

/-- `r.length < 32 ? padLeft(r, 32) : r` -/
def pad32 (bytes : Bytes) : JsResult Bytes :=
  if bytes.length < 32 then padLeft bytes 32 else .ok bytes

/-- Convert a DER-encoded ECDSA signature to 64-byte compact format (r ‖ s). -/
def derToCompact (der : Bytes) : JsResult Bytes := do
  orThrow (elem der (some 0) = some 0x30) (jsError "Invalid DER: expected SEQUENCE")
  let i : Index := some 1
  -- Skip length byte(s) — may be long-form
  let i :=
    match elem der i with
    | some b => if b > 0x80 then plus i (some (b.toNat - 0x80 + 1)) else plus i (some 1)
    | none => plus i (some 1)
  orThrow (elem der i = some 0x02) (jsError "Invalid DER: expected INTEGER for r")
  let i := plus i (some 1)
  let rLen := asNumber (elem der i)
  let i := plus i (some 1)
  let r := integerAt der i rLen
  let i := plus i rLen
  orThrow (elem der i = some 0x02) (jsError "Invalid DER: expected INTEGER for s")
  let i := plus i (some 1)
  let sLen := asNumber (elem der i)
  let i := plus i (some 1)
  let s := integerAt der i sLen
  let compact := zeros 64
  let r ← pad32 r
  let compact ← set compact r 0
  let s ← pad32 s
  set compact s 32

/-- Normalize compact signature to low-S form. -/
def lowS (compact : Bytes) : JsResult Bytes := do
  let s ← bigInt (hexEncode (compact.drop 32))
  if s ≤ P256.halfN then .ok compact
  else do
    let sLow : Int := P256.N - s
    let out := zeros 64
    let out ← set out (compact.take 32) 0
    let sHex := padStart 64 (toHexInt sLow)
    set out (hexDecode sHex) 32

/-- Compress an uncompressed P-256 point (0x04 || x || y) to 33-byte SEC1. -/
def compressP256 (uncompressed : Bytes) : JsResult Bytes := do
  orThrow (elem uncompressed (some 0) = some 0x04)
    (jsError "Expected uncompressed point (0x04 prefix)")
  let x := sliceBytes uncompressed 1 33
  let y := sliceBytes uncompressed 33 65
  let pfx : UInt8 := if y.getD 31 0 &&& 1 = 0 then 0x02 else 0x03
  let compressed := zeros 33
  let compressed := compressed.set 0 pfx
  set compressed x 1

/-- Extract the 33-byte compressed P-256 public key from a WebAuthn attestation.
`getPublicKey` is what the response's method of that name returns. -/
def extractPubkeyFromAttestation (getPublicKey : Option Bytes) : JsResult Bytes :=
  match getPublicKey with
  | none => .error (jsError "getPublicKey() returned null — browser unsupported")
  | some spkiBytes =>
    -- the first `0x04` of all bytes, with or without room behind it
    match spkiBytes.idxOf? 0x04 with
    | none => .error (jsError "Could not find uncompressed point in SPKI")
    | some offset => do
      let uncompressed := sliceBytes spkiBytes offset (offset + 65)
      orThrow (uncompressed.length = 65)
        (jsError s!"Expected 65-byte uncompressed point, got {uncompressed.length}")
      compressP256 uncompressed

end React

/-! ## Signatures -/

/-- A signature as a DER parser sees it: contents `r` and `s` behind their lengths. -/
def derImage (t : UInt8) (r s : Bytes) : Bytes :=
  [0x30, t, 0x02, UInt8.ofNat r.length] ++ r ++ ([0x02, UInt8.ofNat s.length] ++ s)

section Signature

variable {t : UInt8} {r s : Bytes}

/-- A slice of the middle. -/
theorem sliceBytes_middle (front mid back : Bytes) :
    sliceBytes (front ++ mid ++ back) front.length (front.length + mid.length) = mid := by
  rw [sliceBytes, ← List.length_append, List.take_left, List.drop_left]

/-- `r` is where its length says, -/
theorem derImage_r (t : UInt8) (r s : Bytes) :
    sliceBytes (derImage t r s) 4 (4 + r.length) = r :=
  sliceBytes_middle [0x30, t, 0x02, UInt8.ofNat r.length] r _

/-- and `s` behind it. -/
theorem derImage_s (t : UInt8) (r s : Bytes) :
    sliceBytes (derImage t r s) (4 + r.length + 1 + 1) (4 + r.length + 1 + 1 + s.length) = s := by
  have hfront : ([0x30, t, 0x02, UInt8.ofNat r.length] ++ r ++
      [0x02, UInt8.ofNat s.length]).length = 4 + r.length + 1 + 1 := by
    simp only [List.length_append, List.length_cons, List.length_nil]
  have hmiddle := sliceBytes_middle ([0x30, t, 0x02, UInt8.ofNat r.length] ++ r ++
      [0x02, UInt8.ofNat s.length]) s []
  rw [hfront, List.append_nil, List.append_assoc _ _ s] at hmiddle
  exact hmiddle

/-- What stands in front of `r`. -/
theorem derImage_head (t : UInt8) (r s : Bytes) :
    (derImage t r s)[0]? = some 0x30 ∧ (derImage t r s)[1]? = some t ∧
      (derImage t r s)[2]? = some 0x02 ∧
      (derImage t r s)[3]? = some (UInt8.ofNat r.length) :=
  ⟨rfl, rfl, rfl, rfl⟩

/-- And between `r` and `s`. -/
theorem derImage_tag (t : UInt8) (r s : Bytes) :
    (derImage t r s)[4 + r.length]? = some 0x02 ∧
      (derImage t r s)[4 + r.length + 1]? = some (UInt8.ofNat s.length) := by
  have hlen : ([0x30, t, 0x02, UInt8.ofNat r.length] ++ r).length = 4 + r.length := by
    simp only [List.length_append, List.length_cons, List.length_nil]
  constructor
  · rw [derImage, List.getElem?_append_right (by omega), hlen, Nat.sub_self]
    rfl
  · rw [derImage, List.getElem?_append_right (by omega), hlen,
      Nat.add_sub_cancel_left]
    rfl

/-- The contents of a DER integer below `256 ^ 32`, by `integerContents_cases`. -/
def Spells (contents : Bytes) (n : Nat) : Prop :=
  (contents.length ≤ 32 ∧ beNat contents = n) ∨
    ∃ bs, contents = 0 :: bs ∧ bs.length = 32 ∧ beNat bs = n

variable {m n : Nat}

/-- A sign byte and 32 bytes at most. -/
theorem Spells.length_le (h : Spells r m) : r.length ≤ 33 := by
  rcases h with ⟨hle, -⟩ | ⟨bs, rfl, hlen, -⟩
  · omega
  · rw [List.length_cons, hlen]

/-- The length fits the byte it is in. -/
theorem Spells.toNat_length (h : Spells r m) : (UInt8.ofNat r.length).toNat = r.length := by
  have hle := h.length_le
  exact UInt8.toNat_ofNat_of_lt' (show _ < 256 by omega)

/-- The 64 bytes of a signature. -/
def compactOf (m n : Nat) : Bytes := beBytes 32 m ++ beBytes 32 n

/-- The left half, -/
theorem set_left {a : Bytes} (ha : a.length = 32) : set (zeros 64) a 0 = .ok (a ++ zeros 32) :=
  set_middle [] (zeros 32) ((length_zeros 32).trans ha.symm)

/-- and the right one. -/
theorem set_back {a b : Bytes} (ha : a.length = 32) (hb : b.length = 32) :
    set (a ++ zeros 32) b 32 = .ok (a ++ b) := by
  have hset := set_middle a [] ((length_zeros 32).trans hb.symm)
  rwa [ha, List.append_nil, List.append_nil] at hset

/-- Both halves, each right-aligned. -/
theorem set_halves {a b : Bytes} (ha : a.length ≤ 32) (hb : b.length ≤ 32) :
    (set (zeros 64) a (32 - a.length) >>= fun compact => set compact b (64 - b.length)) =
      .ok (compactOf (beNat a) (beNat b)) := by
  have hleft : zeros (32 - a.length) ++ a = beBytes 32 (beNat a) := beBytes_of_beNat ha rfl
  have hright : zeros (32 - b.length) ++ b = beBytes 32 (beNat b) := beBytes_of_beNat hb rfl
  have hfirst : set (zeros 64) a (32 - a.length) = .ok (beBytes 32 (beNat a) ++ zeros 32) := by
    have hset := set_right (k := 32) [] (zeros 32) ha
    rw [hleft, List.length_nil, Nat.zero_add] at hset
    exact hset
  have hsecond : set (beBytes 32 (beNat a) ++ zeros 32) b (64 - b.length) =
      .ok (compactOf (beNat a) (beNat b)) := by
    have hset := set_right (k := 32) (beBytes 32 (beNat a)) [] hb
    rw [hright, length_beBytes, List.append_nil, List.append_nil,
      show 32 + (32 - b.length) = 64 - b.length by omega] at hset
    exact hset
  rw [hfirst]
  exact hsecond

/-- The last 32 bytes. -/
theorem Spells.last (h : Spells r m) :
    ∃ data, (if r.length > 32 then r.drop (r.length - 32) else r) = data ∧ data.length ≤ 32 ∧
      beNat data = m := by
  rcases h with ⟨hle, heq⟩ | ⟨bs, rfl, hlen, heq⟩
  · exact ⟨r, if_neg (by omega), hle, heq⟩
  · have hdrop : (0 :: bs).length - 32 = 1 := by rw [List.length_cons, hlen]
    refine ⟨bs, ?_, by omega, heq⟩
    rw [if_pos (by rw [List.length_cons]; omega), hdrop]
    rfl

/-- The first copy, for any byte in the place of the total length. -/
theorem Core.derToCompact_eq (hr : Spells r m) (hs : Spells s n) :
    Core.derToCompact (derImage t r s) = .ok (compactOf m n) := by
  obtain ⟨h0, -, h2, h3⟩ := derImage_head t r s
  obtain ⟨h4, h5⟩ := derImage_tag t r s
  have hrnat := hr.toNat_length
  have hsnat := hs.toNat_length
  obtain ⟨rData, hrData, hrle, rfl⟩ := hr.last
  obtain ⟨sData, hsData, hsle, rfl⟩ := hs.last
  simp only [Core.derToCompact, orThrow_bind, elem_some, plus_some, asNumber_some, h0, h2, h3, h4,
    h5, hrnat, hsnat, Nat.reduceAdd, slice, Option.getD_some, derImage_r, derImage_s,
    hrData, hsData, if_true]
  exact set_halves hrle hsle

/-- Without the first byte when there are 33. -/
theorem Spells.integerAt {der : Bytes} {off : Nat} (h : Spells r m)
    (hat : sliceBytes der off (off + r.length) = r) :
    ∃ data, React.integerAt der (some off) (some r.length) = data ∧ data.length ≤ 32 ∧
      beNat data = m := by
  unfold React.integerAt
  rcases h with ⟨hle, heq⟩ | ⟨bs, rfl, hlen, heq⟩
  · have hany : (some r.length).any (· > 32) = false := by simpa using hle
    refine ⟨r, ?_, hle, heq⟩
    simp only [hany, Bool.false_eq_true, if_false]
    exact hat
  · have hany : (some (0 :: bs).length).any (· > 32) = true := by simp [hlen]
    refine ⟨bs, ?_, by omega, heq⟩
    simp only [hany, if_true]
    show (der.take (off + 1 + 32)).drop (off + 1) = bs
    rw [List.length_cons, hlen, show off + (32 + 1) = off + 1 + 32 by omega] at hat
    rw [← List.drop_drop]
    exact congrArg (List.drop 1) hat

/-- Padding does not change the number. -/
theorem React.pad32_eq {data : Bytes} (h : data.length ≤ 32) :
    React.pad32 data = .ok (beBytes 32 (beNat data)) := by
  have hright : zeros (32 - data.length) ++ data = beBytes 32 (beNat data) :=
    beBytes_of_beNat h rfl
  unfold React.pad32
  split
  next =>
    have hset := set_right (k := 32) [] [] h
    rw [hright, List.length_nil, Nat.zero_add] at hset
    simp only [List.append_nil, List.nil_append] at hset
    exact hset
  next hge =>
    rw [show 32 - data.length = 0 by omega] at hright
    exact congrArg Except.ok hright

/-- The second copy, for a total length in one byte. -/
theorem React.derToCompact_eq (ht : t < 128) (hr : Spells r m) (hs : Spells s n) :
    React.derToCompact (derImage t r s) = .ok (compactOf m n) := by
  obtain ⟨h0, h1, h2, h3⟩ := derImage_head t r s
  obtain ⟨h4, h5⟩ := derImage_tag t r s
  have hrnat := hr.toNat_length
  have hsnat := hs.toNat_length
  -- the length of the whole is in one byte
  have hshort : ¬t > 0x80 := by
    rw [gt_iff_lt, UInt8.lt_iff_toNat_lt]
    rw [UInt8.lt_iff_toNat_lt] at ht
    exact Nat.not_lt.mpr (Nat.le_of_lt ht)
  obtain ⟨rData, hrData, hrle, rfl⟩ := hr.integerAt (derImage_r t r s)
  obtain ⟨sData, hsData, hsle, rfl⟩ := hs.integerAt (derImage_s t r s)
  simp only [React.derToCompact, orThrow_bind, elem_some, h0, h1, h2, if_neg hshort, if_true,
    plus_some, Nat.reduceAdd, h3, asNumber_some, hrnat, h4, h5, hsnat, hrData, hsData,
    React.pad32_eq hrle, React.pad32_eq hsle]
  show (set (zeros 64) (beBytes 32 (beNat rData)) 0 >>= fun compact =>
    set compact (beBytes 32 (beNat sData)) 32) = _
  rw [set_left (length_beBytes 32 _)]
  exact set_back (length_beBytes 32 _) (length_beBytes 32 _)

/-! ## Low-S normalisation -/

variable {compact : Bytes}

/-- `r` unchanged, and the smaller of `s` and `N - s`. -/
def lowForm (compact : Bytes) : Bytes :=
  compact.take 32 ++
    beBytes 32 (min (beNat (compact.drop 32)) (P256.N - beNat (compact.drop 32)))

/-- Low means not above its negation. -/
theorem P256.le_halfN_iff {s : Nat} (h : s < P256.N) : s ≤ P256.halfN ↔ s ≤ P256.N - s := by
  rw [P256.N_eq] at h ⊢
  omega

/-- A low signature stays, -/
theorem lowForm_low (hlen : compact.length = 64) (hlow : beNat (compact.drop 32) ≤ P256.halfN) :
    lowForm compact = compact := by
  have hdrop : (compact.drop 32).length = 32 := by rw [List.length_drop, hlen]
  have hround := beBytes_beNat (compact.drop 32)
  rw [hdrop] at hround
  have hN : beNat (compact.drop 32) < P256.N := by
    rw [P256.N_eq]
    omega
  rw [lowForm, min_eq_left ((P256.le_halfN_iff hN).mp hlow), hround, List.take_append_drop]

/-- and of a high one `s` is negated. -/
theorem lowForm_high (hN : beNat (compact.drop 32) < P256.N)
    (hhigh : ¬beNat (compact.drop 32) ≤ P256.halfN) :
    lowForm compact = compact.take 32 ++ beBytes 32 (P256.N - beNat (compact.drop 32)) := by
  rw [lowForm, min_eq_right (Nat.le_of_lt (Nat.not_le.mp (hhigh ∘ (P256.le_halfN_iff hN).mpr)))]

/-- The detour through digits. -/
theorem Core.hexToBigInt_eq (bytes : Bytes) :
    Core.hexToBigInt bytes = bigInt (hexEncode bytes) := by
  have hbyte : ∀ b : UInt8, padStart 2 (toHex b.toNat) = hexEncode [b] := fun b => by
    have hpad := padStart_toHex (w := 1) (by omega) b.toNat_lt
    have hround : beBytes 1 b.toNat = [b] := beBytes_beNat [b]
    rwa [hround] at hpad
  have hall : ∀ hex : String, bytes.foldl (fun hex b => hex ++ padStart 2 (toHex b.toNat)) hex =
      hex ++ hexEncode bytes := by
    induction bytes with
    | nil => exact fun hex => String.append_empty.symm
    | cons b bytes ih =>
      intro hex
      rw [List.foldl_cons, ih, hbyte, String.append_assoc]
      simp only [hexEncode, ← String.ofList_append]
      rfl
  rw [Core.hexToBigInt, hall, String.empty_append]

/-- `s` as both read it. -/
theorem bigInt_s (hlen : compact.length = 64) :
    bigInt (hexEncode (compact.drop 32)) = .ok (beNat (compact.drop 32)) := by
  refine bigInt_hexEncode fun hnil => ?_
  have hdrop := congrArg List.length hnil
  rw [List.length_drop, hlen] at hdrop
  cases hdrop

/-- The digits of `N - s` are written in full. -/
theorem padStart_sLow {s : Nat} (h : s < P256.N) :
    padStart 64 (toHexInt (P256.N - s)) = hexEncode (beBytes 32 (P256.N - s)) := by
  have hint : ((P256.N : Int) - s) = Int.ofNat (P256.N - s) := by
    show _ = ((P256.N - s : Nat) : Int)
    omega
  have hlt : P256.N - s < 256 ^ 32 := Nat.lt_of_le_of_lt (Nat.sub_le _ _) P256.N_lt
  rw [hint]
  show padStart (2 * 32) (toHex (P256.N - s)) = _
  exact padStart_toHex (by omega) hlt

/-- The first copy. -/
theorem Core.normalizeLowS_eq (hlen : compact.length = 64)
    (hN : beNat (compact.drop 32) < P256.N) :
    Core.normalizeLowS compact = .ok (lowForm compact) := by
  have htake : (compact.take 32).length = 32 := by
    rw [List.length_take, hlen]
    rfl
  unfold Core.normalizeLowS
  rw [Core.hexToBigInt_eq, bigInt_s hlen]
  show (if _ then _ else _) = _
  split
  next hlow => rw [lowForm_low hlen hlow]
  next hhigh =>
    rw [set_left htake, padStart_sLow hN, lowForm_high hN hhigh]
    have hpairs := parsePairs_hexEncode (beBytes 32 (P256.N - beNat (compact.drop 32)))
    have hfill := fill_eq (compact.take 32) (zeros 32) fun i => toUint8 (parseHex (pairAt
      (hexEncode (beBytes 32 (P256.N - beNat (compact.drop 32)))).toList i))
    rw [length_beBytes] at hpairs
    rw [htake, length_zeros, hpairs] at hfill
    exact congrArg Except.ok hfill

/-- The second. -/
theorem React.lowS_eq (hlen : compact.length = 64) (hN : beNat (compact.drop 32) < P256.N) :
    React.lowS compact = .ok (lowForm compact) := by
  have htake : (compact.take 32).length = 32 := by
    rw [List.length_take, hlen]
    rfl
  unfold React.lowS
  rw [bigInt_s hlen]
  show (if _ then _ else _) = _
  split
  next hlow => rw [lowForm_low hlen hlow]
  next hhigh =>
    have hhex : hexDecode (padStart 64 (toHexInt (P256.N - beNat (compact.drop 32)))) =
        beBytes 32 (P256.N - beNat (compact.drop 32)) := by
      rw [padStart_sLow hN, hexDecode_hexEncode]
    rw [set_left htake, lowForm_high hN hhigh]
    simp only [hhex]
    exact set_back htake (length_beBytes 32 _)

end Signature

/-! ## Public keys -/

/-- A point in SEC1 form: the parity of `y`, and `x`. -/
def compressPoint (x y : Bytes) : Bytes := (if y.getD 31 0 &&& 1 = 0 then 0x02 else 0x03) :: x

/-- The first `0x04`, with 64 bytes behind it. -/
structure Marker (spki : Bytes) (i : Nat) : Prop where
  first : spki[i]? = some 0x04
  before : ∀ j < i, spki[j]? ≠ some 0x04
  room : i + 65 ≤ spki.length

/-- What is taken for the point behind it. -/
def pointAt (spki : Bytes) (i : Nat) : Bytes :=
  compressPoint (sliceBytes spki (i + 1) (i + 33)) (sliceBytes spki (i + 33) (i + 65))

section PublicKey

variable {spki x y key : Bytes} {i j : Nat}

/-- There is one first marker. -/
theorem Marker.unique (hi : Marker spki i) (hj : Marker spki j) : i = j := by
  rcases Nat.lt_trichotomy i j with hlt | heq | hgt
  · exact absurd hi.first (hj.before i hlt)
  · exact heq
  · exact absurd hj.first (hi.before j hgt)

/-- The 33 bytes. -/
theorem set_compressed (pfx : UInt8) (hx : x.length = 32) :
    set ((zeros 33).set 0 pfx) x 1 = .ok (pfx :: x) := by
  have hset := set_middle [pfx] [] ((length_zeros 32).trans hx.symm)
  rw [List.append_nil, List.append_nil] at hset
  exact hset

/-- A slice inside the bytes has its full length. -/
theorem length_sliceBytes_room {start stop : Nat} (h : stop ≤ spki.length) :
    (sliceBytes spki start stop).length = stop - start := by
  rw [sliceBytes, List.length_drop, List.length_take, Nat.min_eq_left h]

/-- So the coordinate has 32 bytes. -/
theorem Marker.length_x (h : Marker spki i) : (sliceBytes spki (i + 1) (i + 33)).length = 32 := by
  have hroom := h.room
  rw [length_sliceBytes_room (by omega)]
  omega

/-- With the marker found, its point is the only result. -/
theorem Marker.ok_iff (h : Marker spki i) :
    (.ok (pointAt spki i) : JsResult Bytes) = .ok key ↔
      ∃ i, Marker spki i ∧ key = pointAt spki i := by
  constructor
  · exact fun hkey => ⟨i, h, (Except.ok.inj hkey).symm⟩
  · rintro ⟨j, hj, rfl⟩
    rw [h.unique hj]

/-- The first copy succeeds where there is a marker with room behind it. -/
theorem Core.spkiToCompressedKey_eq_ok :
    Core.spkiToCompressedKey spki = .ok key ↔ ∃ i, Marker spki i ∧ key = pointAt spki i := by
  unfold Core.spkiToCompressedKey
  split
  next i hi =>
    obtain ⟨hfirst, hrange, hbefore⟩ := List.find?_range_eq_some.mp hi
    rw [List.mem_range] at hrange
    have hmarker : Marker spki i := by
      refine ⟨eq_of_beq hfirst, fun j hj heq => ?_, by omega⟩
      have hno := hbefore j hj
      rw [heq] at hno
      cases hno
    rw [set_compressed _ hmarker.length_x, ite_not]
    exact hmarker.ok_iff
  next hnone =>
    refine iff_of_false (fun h => nomatch h) ?_
    rintro ⟨i, hi, -⟩
    have hroom := hi.room
    have hno := List.find?_range_eq_none.mp hnone i (by omega)
    rw [hi.first] at hno
    cases hno

/-- A slice of a slice. -/
theorem sliceBytes_sliceBytes {bs : Bytes} {start stop c d : Nat} (h : start + d ≤ stop) :
    sliceBytes (sliceBytes bs start stop) c d = sliceBytes bs (start + c) (start + d) := by
  rw [sliceBytes, sliceBytes, sliceBytes, List.take_drop, List.drop_drop, List.take_take,
    Nat.min_eq_left h]

/-- The same compression. -/
theorem React.compressP256_eq (h : Marker spki i) :
    React.compressP256 (sliceBytes spki i (i + 65)) = .ok (pointAt spki i) := by
  have hfirst : (sliceBytes spki i (i + 65))[0]? = some 0x04 := by
    rw [sliceBytes, List.getElem?_drop, List.getElem?_take_of_lt (by omega)]
    exact h.first
  rw [React.compressP256, orThrow_bind, elem_some, hfirst, if_pos rfl,
    sliceBytes_sliceBytes (by omega), sliceBytes_sliceBytes (by omega), set_compressed _ h.length_x]
  rfl

/-- The second copy. -/
theorem React.extractPubkeyFromAttestation_eq_ok :
    React.extractPubkeyFromAttestation (some spki) = .ok key ↔
      ∃ i, Marker spki i ∧ key = pointAt spki i := by
  unfold React.extractPubkeyFromAttestation
  dsimp only
  split
  next hnone =>
    refine iff_of_false (fun h => nomatch h) ?_
    rintro ⟨i, hi, -⟩
    exact List.idxOf?_eq_none_iff.mp hnone (List.mem_of_getElem? hi.first)
  next i hi =>
    obtain ⟨hlt, hfirst, hbefore⟩ := List.idxOf?_eq_some_iff.mp hi
    have hat : spki[i]? = some 0x04 := by rw [List.getElem?_eq_getElem hlt, hfirst]
    have hno : ∀ j < i, spki[j]? ≠ some 0x04 := fun j hj heq => by
      rw [List.getElem?_eq_getElem (by omega)] at heq
      exact hbefore j hj (Option.some.inj heq)
    rw [orThrow_bind]
    by_cases hroom : i + 65 ≤ spki.length
    · -- the first `0x04` is the marker
      have hmarker : Marker spki i := ⟨hat, hno, hroom⟩
      rw [if_pos (by rw [length_sliceBytes_room hroom]; omega), React.compressP256_eq hmarker]
      exact hmarker.ok_iff
    · -- it is too near the end, and no later one counts
      have hshort : (sliceBytes spki i (i + 65)).length ≠ 65 := by
        rw [sliceBytes, List.length_drop, List.length_take]
        omega
      rw [if_neg hshort]
      refine iff_of_false (fun h => nomatch h) ?_
      rintro ⟨j, hj, -⟩
      rcases Nat.lt_trichotomy i j with hij | rfl | hij
      · exact hj.before i hij hat
      · exact hroom hj.room
      · exact hno j hij hj.first

end PublicKey

end Trana.Sdk
