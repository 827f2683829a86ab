import Trana.Lib.Borsh

/-!
# Reading JSON texts

A reader of JSON texts (RFC 8259) over bytes, for statements about what a byte
string is as JSON. String values keep the text's own bytes, with each escape
replaced by the character it names; a `\u` escape by its UTF-16 unit in the
generalised UTF-8 form, so that both halves of a surrogate pair stay apart.

The readers recurse on fuel, of which the text's length is enough: every call
but the first eats a byte.

* `not_object_of_quote` — a text that starts with a quote is no object.
* `Escaped.key_not_at` — a string value, up to the comma behind it, contains no
  member's key, whatever the string is.
* `escaped_escapeString` — a writer's escapes make such a string value.
-/

namespace Trana.Lib

/-- A JSON value; numbers as they are written. -/
inductive Json where
  | null
  | bool (b : Bool)
  | number (literal : Bytes)
  | string (s : Bytes)
  | array (elements : List Json)
  | object (members : List (Bytes × Json))

namespace Json

/-- Space, tab, line feed, carriage return. -/
def isSpace (c : UInt8) : Bool := c == 0x20 || c == 0x09 || c == 0x0a || c == 0x0d

/-- The text behind white space. -/
def skipSpace (bs : Bytes) : Bytes := bs.dropWhile isSpace

/-- A decimal digit. -/
def isDigit (c : UInt8) : Bool := '0'.toUInt8 ≤ c && c ≤ '9'.toUInt8

/-! ## Strings -/

/-- The value of a hexadecimal digit, in either case. -/
def hexDigit? (c : UInt8) : Option Nat :=
  if isDigit c then some (c - '0'.toUInt8).toNat
  else if 'a'.toUInt8 ≤ c ∧ c ≤ 'f'.toUInt8 then some ((c - 'a'.toUInt8).toNat + 10)
  else if 'A'.toUInt8 ≤ c ∧ c ≤ 'F'.toUInt8 then some ((c - 'A'.toUInt8).toNat + 10)
  else none

/-- A UTF-16 unit in the form UTF-8 gives a scalar value of that size. -/
def unitBytes (u : Nat) : Bytes :=
  if u < 0x80 then [UInt8.ofNat u]
  else if u < 0x800 then [UInt8.ofNat (0xc0 + u / 64), UInt8.ofNat (0x80 + u % 64)]
  else
    [UInt8.ofNat (0xe0 + u / 4096), UInt8.ofNat (0x80 + u / 64 % 64), UInt8.ofNat (0x80 + u % 64)]

/-- The two-character escapes. -/
def escape? (c : UInt8) : Option UInt8 :=
  if c = '"'.toUInt8 ∨ c = '\\'.toUInt8 ∨ c = '/'.toUInt8 then some c
  else if c = 'b'.toUInt8 then some 0x08
  else if c = 'f'.toUInt8 then some 0x0c
  else if c = 'n'.toUInt8 then some 0x0a
  else if c = 'r'.toUInt8 then some 0x0d
  else if c = 't'.toUInt8 then some 0x09
  else none

/-- The rest of a string literal behind its opening quote, and what follows. -/
def readString : Bytes → Option (Bytes × Bytes)
  | [] => none
  | c :: rest =>
    if c = '"'.toUInt8 then some ([], rest)
    else if c = '\\'.toUInt8 then
      match rest with
      | [] => none
      | e :: rest =>
        if e = 'u'.toUInt8 then
          match rest with
          | h₁ :: h₂ :: h₃ :: h₄ :: rest => do
            let u := ((← hexDigit? h₁) * 16 + (← hexDigit? h₂)) * 256 +
              (← hexDigit? h₃) * 16 + (← hexDigit? h₄)
            let (s, rest) ← readString rest
            some (unitBytes u ++ s, rest)
          | _ => none
        else do
          let b ← escape? e
          let (s, rest) ← readString rest
          some (b :: s, rest)
    else if c < 0x20 then none
    else do
      let (s, rest) ← readString rest
      some (c :: s, rest)

/-! ## Numbers -/

/-- One digit at least, and what follows the digits. -/
def readDigits (bs : Bytes) : Option (Bytes × Bytes) :=
  let digits := bs.takeWhile isDigit
  if digits = [] then none else some (digits, bs.drop digits.length)

/-- An optional part that starts with one of the given characters. -/
def readOptional (starts : UInt8 → Bool) (read : Bytes → Option (Bytes × Bytes)) (bs : Bytes) :
    Option (Bytes × Bytes) :=
  match bs with
  | [] => some ([], [])
  | c :: rest => if starts c then (read rest).map fun p => (c :: p.1, p.2) else some ([], bs)

/-- A number without a superfluous leading zero. -/
def readNumber (bs : Bytes) : Option (Bytes × Bytes) := do
  let (sign, rest) ← readOptional (· == '-'.toUInt8) (fun bs => some ([], bs)) bs
  let (whole, rest) ← readDigits rest
  guard (whole.length = 1 ∨ whole.head? ≠ some '0'.toUInt8)
  let (fraction, rest) ← readOptional (· == '.'.toUInt8) readDigits rest
  let (exponent, rest) ← readOptional (fun c => c == 'e'.toUInt8 || c == 'E'.toUInt8) (fun bs => do
    let (sign, rest) ← readOptional (fun c => c == '+'.toUInt8 || c == '-'.toUInt8)
      (fun bs => some ([], bs)) bs
    let (digits, rest) ← readDigits rest
    some (sign ++ digits, rest)) rest
  some (sign ++ whole ++ fraction ++ exponent, rest)

/-! ## Values -/

/-- The literal name in front of a text. -/
def readName (name : String) (v : Json) (bs : Bytes) : Option (Json × Bytes) :=
  if Codec.utf8 name <+: bs then some (v, bs.drop (Codec.utf8 name).length) else none

mutual

/-- A value, and what follows it. -/
def readValue : Nat → Bytes → Option (Json × Bytes)
  | 0, _ => none
  | fuel + 1, bs =>
    match skipSpace bs with
    | [] => none
    | c :: rest =>
      if c = '"'.toUInt8 then (readString rest).map fun p => (.string p.1, p.2)
      else if c = '\x7b'.toUInt8 then
        match skipSpace rest with
        | [] => none
        | d :: after =>
          if d = '\x7d'.toUInt8 then some (.object [], after)
          else (readMembers fuel rest).map fun p => (.object p.1, p.2)
      else if c = '['.toUInt8 then
        match skipSpace rest with
        | [] => none
        | d :: after =>
          if d = ']'.toUInt8 then some (.array [], after)
          else (readElements fuel rest).map fun p => (.array p.1, p.2)
      else if c = 't'.toUInt8 then readName "true" (.bool true) (c :: rest)
      else if c = 'f'.toUInt8 then readName "false" (.bool false) (c :: rest)
      else if c = 'n'.toUInt8 then readName "null" .null (c :: rest)
      else (readNumber (c :: rest)).map fun p => (.number p.1, p.2)

/-- The members of an object, up to its closing brace. -/
def readMembers : Nat → Bytes → Option (List (Bytes × Json) × Bytes)
  | 0, _ => none
  | fuel + 1, bs =>
    match skipSpace bs with
    | [] => none
    | c :: rest =>
      if c = '"'.toUInt8 then do
        let (name, rest) ← readString rest
        match skipSpace rest with
        | [] => none
        | c :: rest =>
          if c = ':'.toUInt8 then do
            let (v, rest) ← readValue fuel rest
            match skipSpace rest with
            | [] => none
            | c :: rest =>
              if c = '\x7d'.toUInt8 then some ([(name, v)], rest)
              else if c = ','.toUInt8 then
                (readMembers fuel rest).map fun p => ((name, v) :: p.1, p.2)
              else none
          else none
      else none

/-- The elements of an array, up to its closing bracket. -/
def readElements : Nat → Bytes → Option (List Json × Bytes)
  | 0, _ => none
  | fuel + 1, bs => do
    let (v, rest) ← readValue fuel bs
    match skipSpace rest with
    | [] => none
    | c :: rest =>
      if c = ']'.toUInt8 then some ([v], rest)
      else if c = ','.toUInt8 then (readElements fuel rest).map fun p => (v :: p.1, p.2)
      else none

end

/-- The value of a whole text. -/
def parse (bs : Bytes) : Option Json := do
  let (v, rest) ← readValue (bs.length + 1) bs
  if skipSpace rest = [] then some v else none

/-- The member of this name; of several the last, as `JSON.parse` has it. -/
def member? (members : List (Bytes × Json)) (name : String) : Option Json :=
  ((members.filter fun m => m.1 == Codec.utf8 name).getLast?).map Prod.snd

/-- A text that starts with a quote is no object. -/
theorem not_object_of_quote {rest : Bytes} {members : List (Bytes × Json)} :
    parse ('"'.toUInt8 :: rest) ≠ some (.object members) := by
  intro h
  obtain ⟨⟨v, after⟩, hread, hend⟩ := Option.bind_eq_some_iff.mp h
  have hskip : skipSpace ('"'.toUInt8 :: rest) = '"'.toUInt8 :: rest := rfl
  rw [List.length_cons, readValue, hskip] at hread
  simp only [if_true] at hread
  -- the value read is a string
  obtain ⟨p, -, hp⟩ := Option.map_eq_some_iff.mp hread
  obtain ⟨rfl, rfl⟩ := Prod.mk.inj hp
  simp only at hend
  split at hend
  · cases hend
  · cases hend

/-! ## String values from outside

A search that knows nothing of strings may still look for a member's key: what
tells the two apart is that the quote behind a name is followed by a colon, and
the one that ends a string value by a comma. -/

/-- What stands between the quotes of a string: every quote and every backslash
is escaped. -/
inductive Escaped : Bytes → Prop
  | nil : Escaped []
  | plain {c : UInt8} {body : Bytes} (quote : c ≠ '"'.toUInt8) (backslash : c ≠ '\\'.toUInt8)
      (rest : Escaped body) : Escaped (c :: body)
  | escape {c : UInt8} {body : Bytes} (rest : Escaped body) :
      Escaped ('\\'.toUInt8 :: c :: body)

/-- Two pieces of a string value behind each other are one. -/
theorem Escaped.append {body body' : Bytes} (h : Escaped body) (h' : Escaped body') :
    Escaped (body ++ body') := by
  induction h with
  | nil => exact h'
  | plain quote backslash _ ih => exact .plain quote backslash ih
  | escape _ ih => exact .escape ih

section Key

variable {name more rest : Bytes}

/-- The name of a key, from behind its quote on, is no beginning of a string
value's end: the first bare quote would have to be both the one in front of the
colon and the one in front of the comma. -/
theorem Escaped.name_not_at {body : Bytes} (h : Escaped body)
    (hname : ∀ c ∈ name, c ≠ '"'.toUInt8 ∧ c ≠ '\\'.toUInt8) :
    ¬ name ++ '"'.toUInt8 :: ':'.toUInt8 :: more <+:
      body ++ '"'.toUInt8 :: ','.toUInt8 :: rest := by
  induction h generalizing name with
  | nil =>
    intro hat
    cases name with
    | nil =>
      -- the value ends here, and a comma is no colon
      obtain ⟨-, hat⟩ := List.cons_prefix_cons.mp hat
      obtain ⟨hcolon, -⟩ := List.cons_prefix_cons.mp hat
      exact absurd hcolon (by decide)
    | cons x name =>
      obtain ⟨hx, -⟩ := List.cons_prefix_cons.mp hat
      exact (hname x (List.mem_cons_self ..)).1 hx
  | @plain c body quote backslash _ ih =>
    intro hat
    cases name with
    | nil =>
      obtain ⟨hc, -⟩ := List.cons_prefix_cons.mp hat
      exact quote hc.symm
    | cons x name =>
      obtain ⟨-, hat⟩ := List.cons_prefix_cons.mp hat
      exact ih (fun d hd => hname d (List.mem_cons_of_mem _ hd)) hat
  | escape _ ih =>
    intro hat
    cases name with
    | nil =>
      obtain ⟨hquote, -⟩ := List.cons_prefix_cons.mp hat
      exact absurd hquote (by decide)
    | cons x name =>
      obtain ⟨hx, -⟩ := List.cons_prefix_cons.mp hat
      exact (hname x (List.mem_cons_self ..)).2 hx

/-- A key starts nowhere in a string value, at the quote that ends it, or at
the comma. -/
theorem Escaped.key_not_at {x : UInt8} {body : Bytes} (h : Escaped body)
    (hname : ∀ c ∈ x :: name, c ≠ '"'.toUInt8 ∧ c ≠ '\\'.toUInt8) (hx : x ≠ ','.toUInt8)
    {k : Nat} (hk : k < body.length + 2) :
    ¬ '"'.toUInt8 :: x :: name ++ '"'.toUInt8 :: ':'.toUInt8 :: more <+:
      (body ++ '"'.toUInt8 :: ','.toUInt8 :: rest).drop k := by
  induction h generalizing k with
  | nil =>
    intro hat
    match k with
    | 0 =>
      obtain ⟨-, hat⟩ := List.cons_prefix_cons.mp hat
      obtain ⟨hcomma, -⟩ := List.cons_prefix_cons.mp hat
      exact hx hcomma
    | 1 =>
      obtain ⟨hquote, -⟩ := List.cons_prefix_cons.mp hat
      exact absurd hquote (by decide)
    | k + 2 =>
      rw [List.length_nil] at hk
      omega
  | @plain c body quote backslash _ ih =>
    match k with
    | 0 =>
      intro hat
      obtain ⟨hc, -⟩ := List.cons_prefix_cons.mp hat
      exact quote hc.symm
    | k + 1 =>
      rw [List.length_cons] at hk
      exact ih (by omega)
  | @escape c body hrest ih =>
    match k with
    | 0 =>
      intro hat
      obtain ⟨hquote, -⟩ := List.cons_prefix_cons.mp hat
      exact absurd hquote (by decide)
    | 1 =>
      -- an escaped quote opens no key
      intro hat
      obtain ⟨-, hat⟩ := List.cons_prefix_cons.mp hat
      exact hrest.name_not_at hname hat
    | k + 2 =>
      rw [List.length_cons, List.length_cons] at hk
      exact ih (by omega)

end Key

/-- The digit of a hexadecimal escape. -/
def hexDigit (n : Nat) : UInt8 :=
  if n < 10 then '0'.toUInt8 + UInt8.ofNat n else 'a'.toUInt8 + UInt8.ofNat (n - 10)

/-- A character of a string as a writer puts it: quotes and backslashes behind
a backslash, control characters as `\u` escapes, all others (UTF-8's too) as
they are. -/
def escapeByte (c : UInt8) : Bytes :=
  if c = '"'.toUInt8 ∨ c = '\\'.toUInt8 then ['\\'.toUInt8, c]
  else if c < 0x20 then
    '\\'.toUInt8 :: 'u'.toUInt8 :: '0'.toUInt8 :: '0'.toUInt8 ::
      [hexDigit (c.toNat / 16), hexDigit (c.toNat % 16)]
  else [c]

/-- Escape every byte that needs it. -/
def escapeString (s : Bytes) : Bytes := s.flatMap escapeByte

/-- A hexadecimal digit is neither a quote nor a backslash. -/
theorem hexDigit_plain {n : Nat} (h : n < 16) :
    hexDigit n ≠ '"'.toUInt8 ∧ hexDigit n ≠ '\\'.toUInt8 := by
  have hall : ∀ n < 16, hexDigit n ≠ '"'.toUInt8 ∧ hexDigit n ≠ '\\'.toUInt8 := by
    decide
  exact hall n h

/-- What a byte is escaped to is a piece of a string value. -/
theorem escaped_escapeByte (c : UInt8) : Escaped (escapeByte c) := by
  have hc : c.toNat < 256 := c.toNat_lt
  unfold escapeByte
  by_cases hquoted : c = '"'.toUInt8 ∨ c = '\\'.toUInt8
  · rw [if_pos hquoted]
    exact .escape .nil
  · rw [if_neg hquoted]
    obtain ⟨quote, backslash⟩ := not_or.mp hquoted
    by_cases hcontrol : c < 0x20
    · rw [if_pos hcontrol]
      obtain ⟨q₁, b₁⟩ := hexDigit_plain (show c.toNat / 16 < 16 by omega)
      obtain ⟨q₂, b₂⟩ := hexDigit_plain (show c.toNat % 16 < 16 by omega)
      exact .escape (.plain (by decide) (by decide) (.plain (by decide) (by decide)
        (.plain q₁ b₁ (.plain q₂ b₂ .nil))))
    · rw [if_neg hcontrol]
      exact .plain quote backslash .nil

/-- An escaped string is a string value, by induction on its bytes. -/
theorem escaped_escapeString (s : Bytes) : Escaped (escapeString s) := by
  induction s with
  | nil => exact .nil
  | cons c s ih => exact (escaped_escapeByte c).append ih

end Json

end Trana.Lib
