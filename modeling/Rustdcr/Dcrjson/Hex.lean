import Rustdcr.Dcrjson.Value
import Mathlib.Tactic.IntervalCases

/-!
# Hex parameters (`dcrjson::parse_hex_parameters`)

`parse_hex_parameters` turns a JSON notification parameter into bytes: `null`
is the empty vector, a string goes through `ring::test::from_hex`, anything
else is refused. The decoder is modelled from `from_hex` as it is written:
the length check, then `chunks(2)` with `from_hex_digit` on each byte.

* `fromHexChunks_eq_ok_iff` — the chunk loop succeeds exactly on the byte
  lists that spell its output two hex digits a byte (`SpellsHex`);
* `parseHexParameters_spec` — `Some b` exactly for `null` (with `b` empty)
  and for a string of even byte length, all of whose bytes are hex digits,
  that spells `b`; so decoding undoes `hexEncode` in either case.
-/

namespace Rustdcr

namespace Ring

/-- The error `ring::test::from_hex` reports. -/
inductive HexError where
  | oddLength
  | invalidDigit (d : UInt8)
  deriving DecidableEq, Repr

/-- `from_hex_digit`: the first of `b'0'..=b'9'`, `b'a'..=b'f'`, `b'A'..=b'F'`
that holds `d`, and `d - start + offset` for it. -/
def fromHexDigit (d : UInt8) : Except HexError UInt8 :=
  if 48 ≤ d ∧ d ≤ 57 then .ok (d - 48 + 0)
  else if 97 ≤ d ∧ d ≤ 102 then .ok (d - 97 + 10)
  else if 65 ≤ d ∧ d ≤ 70 then .ok (d - 65 + 10)
  else .error (.invalidDigit d)

/-- `from_hex`'s loop over `as_bytes().chunks(2)`, pushing `(hi * 0x10) | lo`.
No one-byte chunk reaches it: `from_hex` rejects odd lengths first. -/
def fromHexChunks : List UInt8 → Except HexError (List UInt8)
  | [] => .ok []
  | [_] => .error .oddLength
  | hi :: lo :: rest => do
    let h ← fromHexDigit hi
    let l ← fromHexDigit lo
    let r ← fromHexChunks rest
    pure ((h * 0x10 ||| l) :: r)

/-- `ring::test::from_hex`. -/
def fromHex (hexStr : String) : Except HexError (List UInt8) :=
  if (utf8Bytes hexStr).length % 2 ≠ 0 then .error .oddLength
  else fromHexChunks (utf8Bytes hexStr)

end Ring

namespace Dcrjson

/-- `parse_hex_parameters`. -/
def parseHexParameters (value : Value) : Option (List UInt8) :=
  if value.isNull then some []
  else
    match fromValueString value with
    | .error _ => none
    | .ok s =>
      match Ring.fromHex s with
      | .ok v => some v
      | .error _ => none

/-! ## Hex spelling -/

/-- The ASCII hex digit of `n < 16`, upper- or lower-case. -/
def hexDigit (upper : Bool) (n : Nat) : UInt8 :=
  if n < 10 then (48 + n).toUInt8 else if upper then (55 + n).toUInt8 else (87 + n).toUInt8

/-- A byte of `[0-9a-fA-F]`. -/
def IsHexDigit (x : UInt8) : Prop :=
  (48 ≤ x.toNat ∧ x.toNat ≤ 57) ∨ (97 ≤ x.toNat ∧ x.toNat ≤ 102) ∨
    (65 ≤ x.toNat ∧ x.toNat ≤ 70)

/-- `digits` spell `bytes`: two hex digits a byte, high nibble first, each
digit in either case. -/
def SpellsHex : List UInt8 → List UInt8 → Prop
  | [], [] => True
  | hi :: lo :: digits, x :: bytes =>
    (∃ u, hi = hexDigit u (x.toNat / 16)) ∧ (∃ u, lo = hexDigit u (x.toNat % 16)) ∧
      SpellsHex digits bytes
  | _, _ => False

/-- The hex string of `bytes`, every digit in one case. -/
def hexEncode (upper : Bool) (bytes : List UInt8) : String :=
  ⟨bytes.flatMap fun x => [Char.ofNat (hexDigit upper (x.toNat / 16)).toNat,
    Char.ofNat (hexDigit upper (x.toNat % 16)).toNat]⟩

theorem spellsHex_nil_iff {digits : List UInt8} : SpellsHex digits [] ↔ digits = [] := by
  cases digits <;> simp [SpellsHex]

theorem spellsHex_cons_iff {digits bytes : List UInt8} {x : UInt8} :
    SpellsHex digits (x :: bytes) ↔ ∃ hi lo rest, digits = hi :: lo :: rest ∧
      (∃ u, hi = hexDigit u (x.toNat / 16)) ∧ (∃ u, lo = hexDigit u (x.toNat % 16)) ∧
      SpellsHex rest bytes := by
  match digits with
  | [] => simp [SpellsHex]
  | [_] => simp [SpellsHex]
  | hi :: lo :: rest =>
    simp only [SpellsHex]
    exact ⟨fun h => ⟨hi, lo, rest, rfl, h⟩,
      fun ⟨_, _, _, he, h⟩ => by cases he; exact h⟩

/-! ## Digits -/

theorem toNat_hexDigit (u : Bool) {n : Nat} (hn : n < 16) :
    (hexDigit u n).toNat = if n < 10 then 48 + n else if u then 55 + n else 87 + n := by
  unfold hexDigit
  split_ifs <;> simp only [Byte.toNat_natToUInt8] <;> omega

theorem isHexDigit_hexDigit (u : Bool) {n : Nat} (hn : n < 16) : IsHexDigit (hexDigit u n) := by
  rw [IsHexDigit, toNat_hexDigit u hn]
  split_ifs <;> omega

/-- `from_hex_digit` reads every hex digit back as its value. -/
theorem fromHexDigit_hexDigit (u : Bool) {n : Nat} (hn : n < 16) :
    Ring.fromHexDigit (hexDigit u n) = .ok n.toUInt8 := by
  interval_cases n <;> cases u <;> rfl

/-- A byte `from_hex_digit` accepts is the hex digit of the value it returns. -/
theorem fromHexDigit_eq_ok {d w : UInt8} (h : Ring.fromHexDigit d = .ok w) :
    w.toNat < 16 ∧ ∃ u, d = hexDigit u w.toNat := by
  have hd : d.toNat < 256 := d.toNat_lt_size
  simp only [Ring.fromHexDigit, Byte.le_iff_toNat, Byte.toNat_lit] at h
  -- each range gives `d - start + offset` without wrap-around
  split_ifs at h with h1 h2 h3 <;> cases h <;>
    rw [Byte.toNat_sub_add _ _ _ (by simp only [Byte.toNat_lit]; omega)
      (by simp only [Byte.toNat_lit]; omega)] <;>
    simp only [Byte.toNat_lit, Byte.eq_iff_toNat]
  · exact ⟨by omega, false, by rw [toNat_hexDigit _ (by omega), if_pos (by omega)]; omega⟩
  · exact ⟨by omega, false, by
      rw [toNat_hexDigit _ (by omega), if_neg (by omega), if_neg Bool.false_ne_true]; omega⟩
  · exact ⟨by omega, true, by
      rw [toNat_hexDigit _ (by omega), if_neg (by omega), if_pos rfl]; omega⟩

/-- Two nibbles joined as `from_hex` joins them. -/
theorem toNat_joinNibbles {h l : UInt8} (hh : h.toNat < 16) (hl : l.toNat < 16) :
    (h * 0x10 ||| l).toNat = h.toNat * 16 + l.toNat := by
  have nibbles : ∀ a < 16, ∀ b < 16, a * 16 ||| b = a * 16 + b := by decide
  have hm : (h * 0x10).toNat = h.toNat * 16 := by
    show h.toNat * 16 % 256 = _
    omega
  rw [Byte.toNat_or, hm, nibbles _ hh _ hl]

/-- Every byte is the join of its two nibbles. -/
theorem joinNibbles_self (x : UInt8) :
    (x.toNat / 16).toUInt8 * 0x10 ||| (x.toNat % 16).toUInt8 = x := by
  have hx : x.toNat < 256 := x.toNat_lt_size
  rw [Byte.eq_iff_toNat, toNat_joinNibbles (by simp only [Byte.toNat_natToUInt8]; omega)
    (by simp only [Byte.toNat_natToUInt8]; omega)]
  simp only [Byte.toNat_natToUInt8]
  omega

/-! ## The chunk loop -/

theorem except_bind_eq_ok {ε α β : Type} {x : Except ε α} {f : α → Except ε β} {b : β} :
    x >>= f = .ok b ↔ ∃ a, x = .ok a ∧ f a = .ok b := by
  cases x <;> simp [bind, Except.bind]

/-- The chunk loop succeeds exactly on digit lists that spell its output. -/
theorem fromHexChunks_eq_ok_iff (digits bytes : List UInt8) :
    Ring.fromHexChunks digits = .ok bytes ↔ SpellsHex digits bytes := by
  induction digits using Ring.fromHexChunks.induct generalizing bytes with
  | case1 => cases bytes <;> simp [Ring.fromHexChunks, SpellsHex]
  | case2 => cases bytes <;> simp [Ring.fromHexChunks, SpellsHex]
  | case3 hi lo rest ih =>
    simp only [Ring.fromHexChunks, except_bind_eq_ok, ih]
    cases bytes with
    | nil => simp [SpellsHex, pure, Except.pure]
    | cons x xs =>
      simp only [SpellsHex, pure, Except.pure, Except.ok.injEq, List.cons.injEq]
      constructor
      · rintro ⟨h, hh, l, hl, r, hr, rfl, rfl⟩
        obtain ⟨h16, uh, rfl⟩ := fromHexDigit_eq_ok hh
        obtain ⟨l16, ul, rfl⟩ := fromHexDigit_eq_ok hl
        rw [toNat_joinNibbles h16 l16]
        exact ⟨⟨uh, by congr 1; omega⟩, ⟨ul, by congr 1; omega⟩, hr⟩
      · rintro ⟨⟨uh, rfl⟩, ⟨ul, rfl⟩, hr⟩
        have hx : x.toNat < 256 := x.toNat_lt_size
        exact ⟨_, fromHexDigit_hexDigit uh (by omega), _, fromHexDigit_hexDigit ul (by omega),
          xs, hr, joinNibbles_self x, rfl⟩

theorem SpellsHex.length_eq {digits bytes : List UInt8} (h : SpellsHex digits bytes) :
    digits.length = 2 * bytes.length := by
  induction bytes generalizing digits with
  | nil => simp [spellsHex_nil_iff.mp h]
  | cons x xs ih =>
    obtain ⟨hi, lo, rest, rfl, -, -, hr⟩ := spellsHex_cons_iff.mp h
    simp [ih hr]
    omega

theorem SpellsHex.isHexDigit {digits bytes : List UInt8} (h : SpellsHex digits bytes) :
    ∀ d ∈ digits, IsHexDigit d := by
  induction bytes generalizing digits with
  | nil => simp [spellsHex_nil_iff.mp h]
  | cons x xs ih =>
    obtain ⟨hi, lo, rest, rfl, ⟨uh, rfl⟩, ⟨ul, rfl⟩, hr⟩ := spellsHex_cons_iff.mp h
    have hx : x.toNat < 256 := x.toNat_lt_size
    intro d hd
    rcases List.mem_cons.mp hd with rfl | hd
    · exact isHexDigit_hexDigit uh (by omega)
    rcases List.mem_cons.mp hd with rfl | hd
    · exact isHexDigit_hexDigit ul (by omega)
    exact ih hr d hd

/-! ## Decoding -/

/-- A string parameter decodes to `bytes` exactly when its bytes spell them. -/
theorem parseHexParameters_string (s : String) (bytes : List UInt8) :
    parseHexParameters (.string s) = some bytes ↔ SpellsHex (utf8Bytes s) bytes := by
  simp only [parseHexParameters, Value.isNull, Bool.false_eq_true, ↓reduceIte, fromValueString,
    Ring.fromHex]
  by_cases hodd : (utf8Bytes s).length % 2 ≠ 0
  · rw [if_pos hodd]
    simp only [reduceCtorEq, false_iff]
    exact fun h => hodd (by rw [h.length_eq]; omega)
  · rw [if_neg hodd, ← fromHexChunks_eq_ok_iff]
    cases Ring.fromHexChunks (utf8Bytes s) <;> simp

theorem utf8EncodeChar_hexDigit (u : Bool) {n : Nat} (hn : n < 16) :
    String.utf8EncodeChar (Char.ofNat (hexDigit u n).toNat) = [hexDigit u n] := by
  interval_cases n <;> cases u <;> rfl

theorem spellsHex_hexEncode (u : Bool) (bytes : List UInt8) :
    SpellsHex (utf8Bytes (hexEncode u bytes)) bytes := by
  rw [utf8Bytes_eq, hexEncode]
  induction bytes with
  | nil => trivial
  | cons x xs ih =>
    have hx : x.toNat < 256 := x.toNat_lt_size
    simp only [List.flatMap_cons, List.cons_append, List.nil_append, List.flatMap_append]
    rw [utf8EncodeChar_hexDigit u (by omega), utf8EncodeChar_hexDigit u (by omega)]
    exact ⟨⟨u, rfl⟩, ⟨u, rfl⟩, ih⟩

/-- `parse_hex_parameters` returns `Some b` exactly for `null` (with `b`
empty) and for a string of even byte length whose bytes are all hex digits
and spell `b`, two digits a byte, high nibble first; so it decodes the hex
string of every byte vector, in either case. -/
theorem parseHexParameters_spec :
    (∀ v b, parseHexParameters v = some b ↔
      (v = .null ∧ b = []) ∨
      ∃ s, v = .string s ∧ (utf8Bytes s).length % 2 = 0 ∧
        (∀ x ∈ utf8Bytes s, IsHexDigit x) ∧ SpellsHex (utf8Bytes s) b) ∧
    ∀ upper b, parseHexParameters (.string (hexEncode upper b)) = some b := by
  refine ⟨fun v b => ?_,
    fun u b => (parseHexParameters_string _ b).mpr (spellsHex_hexEncode u b)⟩
  cases v with
  | null => simp [parseHexParameters, Value.isNull, eq_comm]
  | string s =>
    rw [parseHexParameters_string]
    constructor
    · intro h
      exact .inr ⟨s, rfl, by rw [h.length_eq]; omega, h.isHexDigit, h⟩
    · rintro (⟨h, -⟩ | ⟨_, ⟨⟩, -, -, h⟩)
      · cases h
      · exact h
  | _ => simp [parseHexParameters, Value.isNull, fromValueString]

end Dcrjson

end Rustdcr
