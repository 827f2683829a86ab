import Trana.Guard.Decoder
import Trana.Lib.Json

/-!
# The challenge of a real client data

`extract_challenge` searches raw bytes for `"challenge":"` and takes the first
match. The limited-verification serialisation of WebAuthn puts one member in
front of the challenge, the type, with every quote and backslash of it escaped,
so the first match is the challenge member itself.

* `clientDataJson_first` — the key does not start before its member.
* `challenge_of_client_data` — `extract_challenge` gives the challenge text,
  whatever the type, the origin and the later members are, and so the challenge
  compared with the intent hash is the one this text encodes.

The search is the window search of the guard, with its `usize` arithmetic; the
bound on the length is that of a slice in memory. The type may be any escaped
string, not only `webauthn.get`, and what stands after the origin any bytes.
Only two things are asked: the type is escaped as the serialisation does it, and
the challenge text has no quote, which a base64url text never has.

Why the key cannot start earlier: between its first quote and its second there
is nothing to escape, and a colon follows. In the head no quote is followed by a
`c`. From the quote that opens the type's value, or an escaped one inside it,
the next quote with no backslash before it closes the value, and a comma follows
that one. The closing quote itself is followed by the comma at once.
-/

namespace Trana.Security

open Trana.Lib Trana.Lib.Exec Trana.Guard

/-- What the serialisation starts with, up to the type's first character. -/
def typeHead : Bytes := Codec.utf8 "\x7b\"type\":\""

def originKey : Bytes := Codec.utf8 ",\"origin\":"

/-- The serialisation of a client data: type, challenge, origin and whatever
members follow, up to the closing brace. The type is given as it stands between
its quotes, the origin and what follows it as they are written. -/
def clientDataJson (type challenge origin more : Bytes) : Bytes :=
  typeHead ++ type ++ '"'.toUInt8 :: ','.toUInt8 :: challengeKey ++ challenge ++
    '"'.toUInt8 :: (originKey ++ origin ++ more)

theorem length_typeHead : typeHead.length = 9 := by decide +kernel

/-- The name in the key, which has nothing to escape and is not empty. -/
theorem challengeKey_eq : ∃ x name, challengeKey =
      '"'.toUInt8 :: x :: name ++ '"'.toUInt8 :: ':'.toUInt8 :: ['"'.toUInt8] ∧
    (∀ c ∈ x :: name, c ≠ '"'.toUInt8 ∧ c ≠ '\\'.toUInt8) ∧ x ≠ ','.toUInt8 :=
  ⟨'c'.toUInt8, Codec.utf8 "hallenge", by decide +kernel, by decide +kernel, by decide⟩

/-- The two characters at each place of the head are not the key's first. -/
theorem typeHead_first : ∀ i < 8, (typeHead.drop i).take 2 ≠ challengeKey.take 2 := by
  decide +kernel

/-- The last character of the head is a quote, and a type follows. -/
theorem typeHead_last : typeHead.drop 8 = ['"'.toUInt8] := by decide +kernel

section Search

variable {type : Bytes}

/-- The key starts nowhere in the type, nor across its end. -/
theorem clientDataJson_first (htype : Json.Escaped type) :
    ∀ i < (typeHead ++ type ++ ['"'.toUInt8, ','.toUInt8]).length,
      ((typeHead ++ type ++ ['"'.toUInt8, ','.toUInt8] ++ challengeKey).drop i).take 13 ≠
        challengeKey := by
  obtain ⟨x, name, hkey, hname, hx⟩ := challengeKey_eq
  have hhead := length_typeHead
  intro i hi hat
  simp only [List.length_append, List.length_cons, List.length_nil, hhead] at hi
  have htext : typeHead ++ type ++ ['"'.toUInt8, ','.toUInt8] ++ challengeKey =
      typeHead ++ (type ++ '"'.toUInt8 :: ','.toUInt8 :: challengeKey) := by
    simp only [List.append_assoc, List.cons_append, List.nil_append]
  rw [htext] at hat
  have hat' : challengeKey <+:
      (typeHead ++ (type ++ '"'.toUInt8 :: ','.toUInt8 :: challengeKey)).drop i := by
    rw [List.prefix_iff_eq_take, length_challengeKey]
    exact hat.symm
  by_cases hi8 : i < 8
  · -- in front of the type's quote the second character tells
    apply typeHead_first i hi8
    have htwo := congrArg (List.take 2) hat
    rw [List.take_take, List.drop_append_of_le_length (by omega),
      List.take_append_of_le_length (by rw [List.length_drop]; omega)] at htwo
    exact htwo
  · by_cases hi9 : i = 8
    · -- the type's own quote opens no key
      subst hi9
      rw [List.drop_append_of_le_length (by omega), typeHead_last, hkey] at hat'
      obtain ⟨-, hat'⟩ := List.cons_prefix_cons.mp hat'
      exact htype.name_not_at hname hat'
    · obtain ⟨k, rfl⟩ : ∃ k, i = typeHead.length + k := ⟨i - 9, by omega⟩
      rw [List.drop_append, List.drop_eq_nil_of_le (by omega), List.nil_append,
        Nat.add_sub_cancel_left, hkey] at hat'
      exact htype.key_not_at hname hx (by omega) hat'

end Search

theorem extractChallenge_clientDataJson {type challenge origin more : Bytes}
    (htype : Json.Escaped type) (hchallenge : ∀ c ∈ challenge, c ≠ '"'.toUInt8)
    (hlen : (clientDataJson type challenge origin more).length < 2 ^ 63) :
    (extractChallenge (clientDataJson type challenge origin more)).Returns (some challenge) := by
  have hhead := length_typeHead
  have hkey := length_challengeKey
  simp only [clientDataJson, List.length_append, List.length_cons] at hlen
  have htext : clientDataJson type challenge origin more =
      (typeHead ++ type ++ ['"'.toUInt8, ','.toUInt8]) ++ challengeKey ++ challenge ++
        '"'.toUInt8 :: (originKey ++ origin ++ more) := by
    simp only [clientDataJson, List.append_assoc, List.cons_append, List.nil_append]
  rw [htext]
  apply extractChallenge_of_first hchallenge
  · simp only [List.length_append, List.length_cons, List.length_nil]
    omega
  · exact clientDataJson_first htype

/-- What the verification compares with the intent hash is what the challenge
text encodes. -/
theorem challengeIs_clientDataJson_iff {type challenge origin more h : Bytes}
    (hextract : (extractChallenge (clientDataJson type challenge origin more)).Returns
      (some challenge)) :
    ChallengeIs (clientDataJson type challenge origin more) h ↔
      (base64urlDecode challenge).Returns (some h) := by
  constructor
  · rintro ⟨c, hc, hdecode⟩
    obtain rfl := Option.some.inj (hc.unique hextract)
    exact hdecode
  · exact fun hdecode => ⟨challenge, hextract, hdecode⟩

/-- On a client data that fits in memory the search ends at the challenge
member and the closing quote it takes is that member's, so it is this text that
the verification decodes. -/
theorem challenge_of_client_data {type challenge origin more : Bytes}
    (htype : Json.Escaped type) (hchallenge : ∀ c ∈ challenge, c ≠ '"'.toUInt8)
    (hlen : (clientDataJson type challenge origin more).length < 2 ^ 63) :
    (extractChallenge (clientDataJson type challenge origin more)).Returns (some challenge) ∧
      ∀ h, ChallengeIs (clientDataJson type challenge origin more) h ↔
        (base64urlDecode challenge).Returns (some h) := by
  have hextract := extractChallenge_clientDataJson htype hchallenge hlen
  exact ⟨hextract, fun h => challengeIs_clientDataJson_iff hextract⟩

section Forged

/-- A type that carries a challenge member of its own, as a writer puts it. -/
def forgedType : Bytes :=
  Json.escapeString (Codec.utf8 "webauthn.get\",\"challenge\":\"AAAA\",\"x\":\"\\")

def forgedOrigin : Bytes := Codec.utf8 "\"https://example.com\",\"challenge\":\"BBBB\""

theorem challenge_of_client_data_forged :
    (extractChallenge (clientDataJson forgedType (base64urlEncode [1, 2, 3]) forgedOrigin
      (Codec.utf8 "\x7d"))).Returns (some (base64urlEncode [1, 2, 3])) ∧
      ∀ h, ChallengeIs (clientDataJson forgedType (base64urlEncode [1, 2, 3]) forgedOrigin
          (Codec.utf8 "\x7d")) h ↔
        (base64urlDecode (base64urlEncode [1, 2, 3])).Returns (some h) :=
  challenge_of_client_data (Json.escaped_escapeString _) (fun _ => mem_base64urlEncode)
    (by decide +kernel)

end Forged

end Trana.Security
