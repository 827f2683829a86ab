import Trana.Sdk.Webauthn

/-!
# Which keys are taken for P-256

The authenticator states the public key of a new credential in DER, with the
curve it is on. Both copies of the extraction look for the byte `0x04` that a
point starts with and read neither the structure nor the curve.

* `marker_p256` — in a P-256 key it is the point that starts there.
* `extraction_exact` — and there it is right; on any other input it is wrong
  unless there is no such byte far enough from the end.
* `other_curve_accepted` — a P-384 key is not such an input: the byte occurs in
  the name of its curve.

To extract exactly is to return the compressed point of a P-256 key and to throw
on everything else, and both copies have to. Which pairs of coordinates are
points of the curve is a parameter: neither copy checks it, the header of a
P-256 key is the same for all, and the result does not depend on it.

The core copy stops 65 bytes before the end, so that a full point fits behind the
byte it finds; the React copy takes the first such byte there is and throws when
there is no room behind it. The header of a P-256 key is 26 bytes long and free
of `0x04`, and the point follows it, so for both the first hit is the point
itself. The React copy takes the key out of the attestation response, where it
may be missing; that is an error of its own.
-/

namespace Trana.Security

open Trana.Lib Trana.Sdk

/-! ## Keys in DER -/

/-- `SubjectPublicKeyInfo`: what kind of key, and the key. -/
def subjectPublicKeyInfo (algorithm key : Bytes) : Bytes :=
  Der.sequence [algorithm, Der.bitString key]

def ecPublicKey : Bytes := Der.oid 1 2 [840, 10045, 2, 1]

def prime256v1 : Bytes := Der.oid 1 2 [840, 10045, 3, 1, 7]

def secp384r1 : Bytes := Der.oid 1 3 [132, 0, 34]

/-- The key with these coordinates. -/
def p256Spki (x y : Bytes) : Bytes :=
  subjectPublicKeyInfo (Der.sequence [ecPublicKey, prime256v1]) (0x04 :: x ++ y)

/-- `spki` is the P-256 key with the point `x`, `y`, where `IsPoint` says which
coordinates count as a point. -/
structure IsP256 (IsPoint : Bytes → Bytes → Prop) (spki x y : Bytes) : Prop where
  length_x : x.length = 32
  length_y : y.length = 32
  point : IsPoint x y
  eq : spki = p256Spki x y

/-- What stands in front of the point. -/
def p256Header : Bytes :=
  [0x30, 0x59, 0x30, 0x13, 0x06, 0x07, 0x2a, 0x86, 0x48, 0xce, 0x3d, 0x02, 0x01, 0x06, 0x08,
   0x2a, 0x86, 0x48, 0xce, 0x3d, 0x03, 0x01, 0x07, 0x03, 0x42, 0x00]

variable {IsPoint : Bytes → Bytes → Prop} {spki x y x' y' key : Bytes} {i : Nat}

theorem p256Spki_eq (hx : x.length = 32) (hy : y.length = 32) :
    p256Spki x y = p256Header ++ (0x04 :: x ++ y) := by
  have halgorithm : Der.sequence [ecPublicKey, prime256v1] = (p256Header.drop 2).take 21 := by
    decide +kernel
  -- 66 bytes of bit string: the count of unused bits, the mark, two coordinates
  have hkey : (0 :: (0x04 :: x ++ y)).length = 66 := by
    simp only [List.length_cons, List.length_append]
    omega
  have hbits : Der.bitString (0x04 :: x ++ y) = [0x03, 0x42, 0x00] ++ (0x04 :: x ++ y) := by
    rw [Der.bitString, Der.tlv_short _ (by omega), hkey]
    rfl
  have hflat : [Der.sequence [ecPublicKey, prime256v1], Der.bitString (0x04 :: x ++ y)].flatten =
      p256Header.drop 2 ++ (0x04 :: x ++ y) := by
    rw [halgorithm, hbits, List.flatten_cons, List.flatten_cons, List.flatten_nil, List.append_nil,
      ← List.append_assoc]
    rfl
  have htotal : (p256Header.drop 2 ++ (0x04 :: x ++ y)).length = 89 := by
    rw [List.length_append, List.length_append, List.length_cons, hx, hy]
    rfl
  rw [p256Spki, subjectPublicKeyInfo, Der.sequence, hflat, Der.tlv_short _ (by omega), htotal]
  rfl

theorem p256Spki_inj (hx : x.length = 32) (hy : y.length = 32) (hx' : x'.length = 32)
    (hy' : y'.length = 32) (h : p256Spki x y = p256Spki x' y') : x = x' ∧ y = y' := by
  rw [p256Spki_eq hx hy, p256Spki_eq hx' hy'] at h
  have hkey := List.append_cancel_left h
  rw [List.cons_append, List.cons_append] at hkey
  exact List.append_inj (List.cons.inj hkey).2 (hx.trans hx'.symm)

/-- The first `0x04` of a P-256 key is in front of its point. -/
theorem marker_p256 (hx : x.length = 32) (hy : y.length = 32) : Marker (p256Spki x y) 26 := by
  have hbefore : ∀ j < 26, p256Header[j]? ≠ some 0x04 := by decide +kernel
  rw [p256Spki_eq hx hy]
  refine ⟨rfl, fun j hj => ?_, ?_⟩
  · rw [List.getElem?_append_left (show j < p256Header.length from hj)]
    exact hbefore j hj
  · rw [List.length_append, List.length_append, List.length_cons, hx, hy]
    exact Nat.le_refl _

theorem pointAt_p256 (hx : x.length = 32) (hy : y.length = 32) :
    pointAt (p256Spki x y) 26 = compressPoint x y := by
  have hfront : (p256Header ++ [0x04]).length = 27 := rfl
  have hxread : sliceBytes (p256Spki x y) 27 59 = x := by
    have hmiddle := sliceBytes_middle (p256Header ++ [0x04]) x y
    rw [hfront, hx] at hmiddle
    rw [p256Spki_eq hx hy]
    exact hmiddle
  have hyread : sliceBytes (p256Spki x y) 59 91 = y := by
    have hmiddle := sliceBytes_middle (p256Header ++ [0x04] ++ x) y []
    rw [List.length_append, hfront, hx, hy, List.append_nil] at hmiddle
    rw [p256Spki_eq hx hy]
    exact hmiddle
  rw [pointAt, hxread, hyread]

/-! ## Extraction -/

/-- Both copies return a key exactly for P-256 keys, and then the compressed
point; all else is an error. -/
structure ExtractsExactly (IsPoint : Bytes → Bytes → Prop) (spki : Bytes) : Prop where
  core : ∀ key, Core.spkiToCompressedKey spki = .ok key ↔
    ∃ x y, IsP256 IsPoint spki x y ∧ key = compressPoint x y
  react : ∀ key, React.extractPubkeyFromAttestation (some spki) = .ok key ↔
    ∃ x y, IsP256 IsPoint spki x y ∧ key = compressPoint x y

theorem marker_iff_of_isP256 (h : IsP256 IsPoint spki x y) :
    (∃ i, Marker spki i ∧ key = pointAt spki i) ↔
      ∃ x y, IsP256 IsPoint spki x y ∧ key = compressPoint x y := by
  obtain ⟨hx, hy, hpoint, rfl⟩ := h
  have hmarker := marker_p256 hx hy
  constructor
  · rintro ⟨i, hi, rfl⟩
    rw [hi.unique hmarker, pointAt_p256 hx hy]
    exact ⟨x, y, ⟨hx, hy, hpoint, rfl⟩, rfl⟩
  · rintro ⟨x', y', ⟨hx', hy', -, heq⟩, rfl⟩
    obtain ⟨rfl, rfl⟩ := p256Spki_inj hx hy hx' hy' heq
    exact ⟨26, hmarker, (pointAt_p256 hx hy).symm⟩

theorem extractsExactly_of_isP256 (h : IsP256 IsPoint spki x y) :
    ExtractsExactly IsPoint spki where
  core _ := Core.spkiToCompressedKey_eq_ok.trans (marker_iff_of_isP256 h)
  react _ := React.extractPubkeyFromAttestation_eq_ok.trans (marker_iff_of_isP256 h)

/-- Without such a byte both return an error, and it is no P-256 key. -/
theorem extractsExactly_of_not_marker (h : ¬∃ i, Marker spki i) :
    ExtractsExactly IsPoint spki := by
  have hno : ∀ key, (∃ i, Marker spki i ∧ key = pointAt spki i) ↔
      ∃ x y, IsP256 IsPoint spki x y ∧ key = compressPoint x y := fun key => by
    refine iff_of_false (fun ⟨i, hi, _⟩ => h ⟨i, hi⟩) ?_
    rintro ⟨x, y, ⟨hx, hy, -, rfl⟩, -⟩
    exact h ⟨26, marker_p256 hx hy⟩
  exact ⟨fun key => Core.spkiToCompressedKey_eq_ok.trans (hno key),
    fun key => React.extractPubkeyFromAttestation_eq_ok.trans (hno key)⟩

/-- With one the input is taken for a key. -/
theorem isP256_of_marker (h : ExtractsExactly IsPoint spki) (hi : Marker spki i) :
    ∃ x y, IsP256 IsPoint spki x y := by
  have hcore := Core.spkiToCompressedKey_eq_ok.mpr ⟨i, hi, rfl⟩
  obtain ⟨x, y, hp256, -⟩ := (h.core _).mp hcore
  exact ⟨x, y, hp256⟩

/-- Key extraction does what it should exactly on P-256 keys, and on inputs
without a `0x04` that starts 65 bytes. -/
theorem extraction_exact (IsPoint : Bytes → Bytes → Prop) (spki : Bytes) :
    ExtractsExactly IsPoint spki ↔
      (∃ x y, IsP256 IsPoint spki x y) ∨ ¬∃ i, Marker spki i := by
  constructor
  · intro h
    refine or_iff_not_imp_right.mpr fun hmarker => ?_
    obtain ⟨i, hi⟩ := not_not.mp hmarker
    exact isP256_of_marker h hi
  · rintro (⟨x, y, h⟩ | h)
    · exact extractsExactly_of_isP256 h
    · exact extractsExactly_of_not_marker h

/-! ## Another curve -/

/-- The base point of P-384. -/
def p384Base : Bytes := [
  0xaa, 0x87, 0xca, 0x22, 0xbe, 0x8b, 0x05, 0x37, 0x8e, 0xb1, 0xc7, 0x1e, 0xf3, 0x20, 0xad, 0x74,
  0x6e, 0x1d, 0x3b, 0x62, 0x8b, 0xa7, 0x9b, 0x98, 0x59, 0xf7, 0x41, 0xe0, 0x82, 0x54, 0x2a, 0x38,
  0x55, 0x02, 0xf2, 0x5d, 0xbf, 0x55, 0x29, 0x6c, 0x3a, 0x54, 0x5e, 0x38, 0x72, 0x76, 0x0a, 0xb7,
  0x36, 0x17, 0xde, 0x4a, 0x96, 0x26, 0x2c, 0x6f, 0x5d, 0x9e, 0x98, 0xbf, 0x92, 0x92, 0xdc, 0x29,
  0xf8, 0xf4, 0x1d, 0xbd, 0x28, 0x9a, 0x14, 0x7c, 0xe9, 0xda, 0x31, 0x13, 0xb5, 0xf0, 0xb8, 0xc0,
  0x0a, 0x60, 0xb1, 0xce, 0x1d, 0x7e, 0x81, 0x9d, 0x7a, 0x43, 0x1d, 0x7c, 0x90, 0xea, 0x0e, 0x5f]

def p384Spki : Bytes :=
  subjectPublicKeyInfo (Der.sequence [ecPublicKey, secp384r1]) (0x04 :: p384Base)

theorem p384Spki_eq : p384Spki =
    [0x30, 0x76, 0x30, 0x10, 0x06, 0x07, 0x2a, 0x86, 0x48, 0xce, 0x3d, 0x02, 0x01, 0x06, 0x05,
     0x2b, 0x81, 0x04, 0x00, 0x22, 0x03, 0x62, 0x00, 0x04] ++ p384Base := by
  decide +kernel

/-- Both copies return a key for it, made of the end of its header and the
beginning of its point. -/
theorem other_curve_accepted :
    (∀ IsPoint, ¬ExtractsExactly IsPoint p384Spki) ∧
      Core.spkiToCompressedKey p384Spki =
        .ok (0x02 :: [0x00, 0x22, 0x03, 0x62, 0x00, 0x04] ++ p384Base.take 26) ∧
      React.extractPubkeyFromAttestation (some p384Spki) =
        .ok (0x02 :: [0x00, 0x22, 0x03, 0x62, 0x00, 0x04] ++ p384Base.take 26) := by
  -- the curve's identifier has the arc 132, written 0x81 0x04
  have hmarker : Marker p384Spki 17 := by
    rw [p384Spki_eq]
    exact ⟨rfl, by decide +kernel, by decide +kernel⟩
  have hpoint : 0x02 :: [0x00, 0x22, 0x03, 0x62, 0x00, 0x04] ++ p384Base.take 26 =
      pointAt p384Spki 17 := by
    rw [p384Spki_eq]
    rfl
  refine ⟨fun IsPoint h => ?_, Core.spkiToCompressedKey_eq_ok.mpr ⟨17, hmarker, hpoint⟩,
    React.extractPubkeyFromAttestation_eq_ok.mpr ⟨17, hmarker, hpoint⟩⟩
  obtain ⟨x, y, hx, hy, -, heq⟩ := isP256_of_marker h hmarker
  rw [p384Spki_eq, p256Spki_eq hx hy] at heq
  -- a P-256 key would have another length byte
  have hlength := congrArg (·[1]?) heq
  cases hlength

end Trana.Security
