import Rustdcr.Bytes

/-!
# `httparse::Response::parse`

The proxy reply parser `dial_connection` calls, modelled from httparse 1.3
with its default configuration: empty lines skipped, `HTTP/1.0` or
`HTTP/1.1`, one space, a three-digit code, an optional reason phrase, then
header lines into a fixed number of slots (the caller's buffer of
`headers::MAX_HEADERS`), up to the empty line. Running out of input
anywhere is `Partial`.

* `reads_acceptedHead` — every head of httparse's lenient grammar
  (`AcceptedHead`: empty lines first, bare LF line ends, no reason phrase)
  with no more header fields than slots reads to its code, followed by
  anything, and runs out on each of its proper prefixes; `HttparseSound`
  proves the converse;
* `parse_head_append` — a well-formed response head (`ResponseHead`, RFC
  7230 §3.1.2 and §3.2) followed by any bytes parses `Complete`, with its
  status code, when it has no more header fields than slots;
* `parse_head_truncated` — every proper prefix of such a head parses
  `Partial`;
* `parse_head_append_tooManyHeaders` — with more fields than slots it is
  the error `TooManyHeaders`, whatever follows.
-/

namespace Rustdcr.Httparse

/-- `httparse::Error`. -/
inductive Error where
  | headerName
  | headerValue
  | newLine
  | status
  | token
  | tooManyHeaders
  | version
  deriving DecidableEq, Repr

/-- One parser's outcome: the input ran out (`Partial`), an error, or a value
and the bytes after it. -/
inductive Step (α : Type) where
  | incomplete
  | error (e : Error)
  | done (a : α) (rest : List UInt8)
  deriving DecidableEq, Repr

/-- Run `k` on what `s` leaves, as the `complete!` and `?` macros do. -/
def Step.andThen {α β : Type} (s : Step α) (k : α → List UInt8 → Step β) : Step β :=
  match s with
  | .incomplete => .incomplete
  | .error e => .error e
  | .done a rest => k a rest

@[simp] theorem Step.done_andThen {α β : Type} (a : α) (rest : List UInt8)
    (k : α → List UInt8 → Step β) : (Step.done a rest).andThen k = k a rest := rfl

theorem Step.andThen_assoc {α β γ : Type} (s : Step α) (k : α → List UInt8 → Step β)
    (k' : β → List UInt8 → Step γ) :
    (s.andThen k).andThen k' = s.andThen fun a r => (k a r).andThen k' := by
  cases s <;> rfl

/-- `expect!(bytes.next() == b => Err(e))`. -/
def expect (b : UInt8) (e : Error) : List UInt8 → Step Unit
  | [] => .incomplete
  | x :: rest => if x = b then .done () rest else .error e

/-- One `expect!` for each byte of `bs`, in order. -/
def expectAll (e : Error) : List UInt8 → List UInt8 → Step Unit
  | [], input => .done () input
  | _ :: _, [] => .incomplete
  | b :: bs, x :: rest => if x = b then expectAll e bs rest else .error e

/-- `skip_empty_lines`. -/
def skipEmptyLines : List UInt8 → Step Unit
  | [] => .incomplete
  | x :: rest =>
    if x = 13 then
      match rest with
      | [] => .incomplete
      | y :: rest' => if y = 10 then skipEmptyLines rest' else .error .newLine
    else if x = 10 then skipEmptyLines rest
    else .done () (x :: rest)

/-- `parse_version`: `HTTP/1.` and the minor version, `0` or `1`. -/
def parseVersion (input : List UInt8) : Step UInt8 :=
  (expectAll .version (utf8Bytes "HTTP/1.") input).andThen fun _ rest =>
    match rest with
    | [] => .incomplete
    | x :: rest => if x = 48 then .done 0 rest else if x = 49 then .done 1 rest else .error .version

/-- One decimal digit of the status code. -/
def parseDigit : List UInt8 → Step Nat
  | [] => .incomplete
  | x :: rest => if 48 ≤ x ∧ x ≤ 57 then .done (x.toNat - 48) rest else .error .status

/-- `parse_code`. -/
def parseCode (input : List UInt8) : Step UInt16 :=
  (parseDigit input).andThen fun hundreds r =>
    (parseDigit r).andThen fun tens r =>
      (parseDigit r).andThen fun ones r => .done (hundreds * 100 + tens * 10 + ones).toUInt16 r

/-- A reason-phrase byte: `HTAB / SP / VCHAR / obs-text`. -/
def isReasonByte (b : UInt8) : Bool := b == 9 || b == 32 || (33 ≤ b && b ≤ 126) || 128 ≤ b

/-- `parse_reason`, through its line end. -/
def parseReason : List UInt8 → Step Unit
  | [] => .incomplete
  | x :: rest =>
    if x = 13 then expect 10 .status rest
    else if x = 10 then .done () rest
    else if isReasonByte x then parseReason rest
    else .error .status

/-- The status line after the code: a space and a reason phrase, or the line end. -/
def parseStatusEnd : List UInt8 → Step Unit
  | [] => .incomplete
  | b :: rest =>
    if b = 32 then parseReason rest
    else if b = 13 then expect 10 .status rest
    else if b = 10 then .done () rest
    else .error .status

/-- httparse's `HEADER_NAME_MAP`: the `tchar`s of RFC 7230. -/
def isHeaderNameToken (b : UInt8) : Bool :=
  (48 ≤ b && b ≤ 57) || (65 ≤ b && b ≤ 90) || (97 ≤ b && b ≤ 122) ||
    [33, 35, 36, 37, 38, 39, 42, 43, 45, 46, 94, 95, 96, 124, 126].contains b

/-- httparse's `HEADER_VALUE_MAP`: `HTAB`, `SP`, `VCHAR` and `obs-text`. -/
def isHeaderValueToken (b : UInt8) : Bool := b == 9 || (32 ≤ b && b != 127)

/-- The byte that ends a header value (httparse's `found_ctl`). -/
def valueEnd (b : UInt8) (rest : List UInt8) : Step Unit :=
  if b = 13 then expect 10 .headerValue rest
  else if b = 10 then .done () rest
  else .error .headerValue

/-- A header value, through its line end. -/
def parseValue : List UInt8 → Step Unit
  | [] => .incomplete
  | b :: rest => if isHeaderValueToken b then parseValue rest else valueEnd b rest

/-- The whitespace between a colon and the value, then the value. -/
def skipValueSpace : List UInt8 → Step Unit
  | [] => .incomplete
  | b :: rest =>
    if b = 32 ∨ b = 9 then skipValueSpace rest
    else if isHeaderValueToken b then parseValue rest
    else valueEnd b rest

/-- The rest of a header name, through its colon. -/
def parseName : List UInt8 → Step Unit
  | [] => .incomplete
  | b :: rest =>
    if b = 58 then .done () rest
    else if isHeaderNameToken b then parseName rest
    else .error .headerName

/-- `parse_headers_iter` with `slots` header slots free: the number of header
lines read, through the empty line. A header line that starts while no slot
is free is `TooManyHeaders`. -/
def parseHeaders : Nat → List UInt8 → Step Nat
  | _, [] => .incomplete
  | slots, b :: rest =>
    if b = 13 then (expect 10 .newLine rest).andThen fun _ r => .done 0 r
    else if b = 10 then .done 0 rest
    else if !isHeaderNameToken b then .error .headerName
    else
      match slots with
      | 0 => .error .tooManyHeaders
      | k + 1 =>
        ((parseName rest).andThen fun _ r => skipValueSpace r).andThen fun _ r =>
          (parseHeaders k r).andThen fun n r => .done (n + 1) r

/-- The status line and the headers; the status code. -/
def parseHead (slots : Nat) (buf : List UInt8) : Step UInt16 :=
  (skipEmptyLines buf).andThen fun _ r =>
  (parseVersion r).andThen fun _ r =>
  (expect 32 .version r).andThen fun _ r =>
  (parseCode r).andThen fun code r =>
  (parseStatusEnd r).andThen fun _ r =>
  (parseHeaders slots r).andThen fun _ r => .done code r

/-- `Status`; `Complete(len)` carries the `code` the response then holds. -/
inductive Status where
  | incomplete
  | complete (len : Nat) (code : UInt16)
  deriving DecidableEq, Repr

/-- `Response::parse` into a buffer of `slots` headers. -/
def Response.parse (slots : Nat) (buf : List UInt8) : Except Error Status :=
  match parseHead slots buf with
  | .incomplete => .ok .incomplete
  | .error e => .error e
  | .done code rest => .ok (.complete (buf.length - rest.length) code)

/-! ## Well-formed response heads -/

/-- A header line `field-name ":" OWS field-value OWS CRLF`; `value` is all
that stands between the colon and the line end. -/
structure HeaderField where
  name : List UInt8
  value : List UInt8
  name_ne : name ≠ []
  name_token : ∀ b ∈ name, isHeaderNameToken b = true
  value_token : ∀ b ∈ value, isHeaderValueToken b = true

/-- The bytes of a header line. -/
def HeaderField.bytes (f : HeaderField) : List UInt8 := f.name ++ 58 :: f.value ++ [13, 10]

/-- A complete HTTP/1.0 or HTTP/1.1 response head:
`HTTP/1.x SP status-code SP reason-phrase CRLF *(header-field CRLF) CRLF`. -/
structure ResponseHead where
  minor : Bool
  code : Nat
  code_lt : code < 1000
  reason : List UInt8
  reason_byte : ∀ b ∈ reason, isReasonByte b = true
  fields : List HeaderField

/-- The three ASCII digits of a status code. -/
def codeDigits (code : Nat) : List UInt8 :=
  [(48 + code / 100).toUInt8, (48 + code / 10 % 10).toUInt8, (48 + code % 10).toUInt8]

/-- The bytes of a response head. -/
def ResponseHead.bytes (h : ResponseHead) : List UInt8 :=
  utf8Bytes "HTTP/1." ++ (if h.minor then 49 else 48) :: 32 :: (codeDigits h.code ++
    32 :: (h.reason ++ 13 :: 10 :: (h.fields.flatMap HeaderField.bytes ++ [13, 10])))

/-! ## The heads the parser accepts

httparse is more lenient than RFC 7230: a line may end in a bare LF, empty
lines before the status line are skipped, and the reason phrase with the
space before it may be missing. `AcceptedHead` is that grammar; every
`ResponseHead` is one. -/

/-- A line end: CR LF, or a bare LF. -/
inductive LineEnd where
  | crlf
  | lf
  deriving DecidableEq, Repr

/-- The bytes of a line end. -/
def LineEnd.bytes : LineEnd → List UInt8
  | .crlf => [13, 10]
  | .lf => [10]

/-- A header line as httparse reads it: name tokens, a colon, value bytes
(the spaces after the colon among them), a line end. -/
structure AcceptedField where
  name : List UInt8
  value : List UInt8
  ending : LineEnd
  name_ne : name ≠ []
  name_token : ∀ b ∈ name, isHeaderNameToken b = true
  value_token : ∀ b ∈ value, isHeaderValueToken b = true

/-- The bytes of an accepted header line. -/
def AcceptedField.bytes (f : AcceptedField) : List UInt8 :=
  f.name ++ 58 :: f.value ++ f.ending.bytes

/-- The status line after the code: a line end, or a space, a reason phrase
and a line end. -/
def statusEndBytes (reason : Option (List UInt8)) (e : LineEnd) : List UInt8 :=
  match reason with
  | none => e.bytes
  | some r => 32 :: (r ++ e.bytes)

/-- A response head as httparse accepts it. -/
structure AcceptedHead where
  emptyLines : List LineEnd
  minor : Bool
  code : Nat
  code_lt : code < 1000
  reason : Option (List UInt8)
  reason_byte : ∀ r ∈ reason, ∀ b ∈ r, isReasonByte b = true
  statusEnding : LineEnd
  fields : List AcceptedField
  ending : LineEnd

/-- The bytes of an accepted head. -/
def AcceptedHead.bytes (a : AcceptedHead) : List UInt8 :=
  a.emptyLines.flatMap LineEnd.bytes ++ (utf8Bytes "HTTP/1." ++ (if a.minor then 49 else 48) ::
    32 :: (codeDigits a.code ++ (statusEndBytes a.reason a.statusEnding ++
      (a.fields.flatMap AcceptedField.bytes ++ a.ending.bytes))))

/-- A header line of a `ResponseHead`, ending in CR LF. -/
def HeaderField.toAccepted (f : HeaderField) : AcceptedField :=
  ⟨f.name, f.value, .crlf, f.name_ne, f.name_token, f.value_token⟩

/-- A `ResponseHead`, with no empty line before it and every line ending in CR LF. -/
def ResponseHead.toAccepted (h : ResponseHead) : AcceptedHead :=
  ⟨[], h.minor, h.code, h.code_lt, some h.reason,
    fun _ hr => Option.some.inj hr ▸ h.reason_byte, .crlf,
    h.fields.map HeaderField.toAccepted, .crlf⟩

theorem ResponseHead.toAccepted_bytes (h : ResponseHead) : h.toAccepted.bytes = h.bytes := by
  simp only [AcceptedHead.bytes, ResponseHead.toAccepted, ResponseHead.bytes, statusEndBytes,
    List.flatMap_map, List.flatMap_nil, List.nil_append, List.append_assoc, List.cons_append]
  rfl

/-! ## Each parser on its accepted input -/

/-- `p` reads exactly `bs`, to the value `a`: followed by anything it is
done with what follows, and cut short it needs more. -/
structure Reads {α : Type} (p : List UInt8 → Step α) (bs : List UInt8) (a : α) : Prop where
  append : ∀ rest, p (bs ++ rest) = .done a rest
  truncated : ∀ k < bs.length, p (bs.take k) = .incomplete

theorem Reads.andThen {α β : Type} {p : List UInt8 → Step α}
    {k : α → List UInt8 → Step β}
    {bs cs : List UInt8} {a : α} {b : β} (hp : Reads p bs a) (hk : Reads (k a) cs b) :
    Reads (fun input => (p input).andThen k) (bs ++ cs) b where
  append rest := by rw [List.append_assoc, hp.append, Step.done_andThen, hk.append]
  truncated j hj := by
    by_cases h : j < bs.length
    · rw [List.take_append_of_le_length h.le, hp.truncated j h]
      rfl
    · obtain ⟨i, rfl⟩ : ∃ i, j = bs.length + i := ⟨j - bs.length, by omega⟩
      rw [List.take_append, hp.append, Step.done_andThen,
        hk.truncated i (by rw [List.length_append] at hj; omega)]

theorem Reads.of_eq {α : Type} {p : List UInt8 → Step α} {bs bs' : List UInt8} {a : α}
    (h : Reads p bs a) (hb : bs = bs') : Reads p bs' a := hb ▸ h

theorem reads_done {α : Type} {a b : α} (h : a = b) : Reads (fun r => .done a r) [] b :=
  ⟨fun _ => h ▸ rfl, fun _ hk => absurd hk (Nat.not_lt_zero _)⟩

/-- A parser that needs a byte and, on `b`, goes on as `q` from it. -/
theorem reads_peek {α : Type} {p q : List UInt8 → Step α} {b : UInt8} {bs : List UInt8} {a : α}
    (hnil : p [] = .incomplete) (h : ∀ r, p (b :: r) = q (b :: r)) (hq : Reads q (b :: bs) a) :
    Reads p (b :: bs) a where
  append rest := by rw [List.cons_append, h, ← List.cons_append, hq.append]
  truncated k hk := by
    cases k with
    | zero => exact hnil
    | succ j => rw [List.take_succ_cons, h, ← List.take_succ_cons, hq.truncated _ hk]

/-- A parser that needs a byte and, on `b`, goes on as `q` after it. -/
theorem reads_cons {α : Type} {p q : List UInt8 → Step α} {b : UInt8} {bs : List UInt8} {a : α}
    (hnil : p [] = .incomplete) (h : ∀ r, p (b :: r) = q r) (hq : Reads q bs a) :
    Reads p (b :: bs) a where
  append rest := by rw [List.cons_append, h, hq.append]
  truncated k hk := by
    cases k with
    | zero => exact hnil
    | succ j => rw [List.take_succ_cons, h, hq.truncated j (by simpa using hk)]

/-- A parser that ends a line: CR goes on as `q`, which wants the LF, and a
bare LF is the end. -/
theorem reads_lineEnd {α : Type} {p q : List UInt8 → Step α} {a : α}
    (hnil : p [] = .incomplete) (hcr : ∀ r, p (13 :: r) = q r) (hq : Reads q [10] a)
    (hlf : ∀ r, p (10 :: r) = .done a r) : ∀ e : LineEnd, Reads p e.bytes a
  | .crlf => reads_cons hnil hcr hq
  | .lf => reads_cons hnil hlf (reads_done rfl)

theorem reads_expectAll (e : Error) (bs : List UInt8) : Reads (expectAll e bs) bs () := by
  induction bs with
  | nil => exact reads_done rfl
  | cons b bs ih => exact reads_cons rfl (fun r => by simp [expectAll]) ih

theorem reads_expect (b : UInt8) (e : Error) : Reads (expect b e) [b] () :=
  reads_cons rfl (fun r => by simp [expect]) (reads_done rfl)

theorem skipEmptyLines_crlf (rest : List UInt8) :
    skipEmptyLines (13 :: 10 :: rest) = skipEmptyLines rest := by
  rw [skipEmptyLines.eq_def]
  simp

theorem skipEmptyLines_lf (rest : List UInt8) :
    skipEmptyLines (10 :: rest) = skipEmptyLines rest := by
  rw [skipEmptyLines.eq_def]
  simp

/-- A line that starts with neither CR nor LF is not skipped. -/
theorem skipEmptyLines_start {x : UInt8} (h13 : x ≠ 13) (h10 : x ≠ 10) (rest : List UInt8) :
    skipEmptyLines (x :: rest) = .done () (x :: rest) := by
  rw [skipEmptyLines.eq_def]
  simp only [if_neg h13, if_neg h10]

/-- Empty lines, then what `k` reads from a byte that is neither CR nor LF. -/
theorem reads_skipEmptyLines {α : Type} {k : Unit → List UInt8 → Step α} {b : UInt8}
    {bs : List UInt8} {a : α} (h13 : b ≠ 13) (h10 : b ≠ 10) (hk : Reads (k ()) (b :: bs) a)
    (ls : List LineEnd) :
    Reads (fun input => (skipEmptyLines input).andThen k)
      (ls.flatMap LineEnd.bytes ++ b :: bs) a := by
  induction ls with
  | nil =>
    exact reads_peek rfl (fun r => by rw [skipEmptyLines_start h13 h10, Step.done_andThen]) hk
  | cons e ls ih =>
    cases e with
    | crlf =>
      exact reads_cons rfl (fun r => rfl)
        (reads_cons rfl (fun r => by rw [skipEmptyLines_crlf]) ih)
    | lf => exact reads_cons rfl (fun r => by rw [skipEmptyLines_lf]) ih

theorem reads_parseVersion (minor : Bool) :
    Reads parseVersion (utf8Bytes "HTTP/1." ++ [if minor then 49 else 48])
      (if minor then 1 else 0) :=
  (reads_expectAll .version _).andThen
    (reads_cons rfl (fun r => by cases minor <;> rfl) (reads_done rfl))

theorem parseDigit_digit {k : Nat} (hk : k < 10) (rest : List UInt8) :
    parseDigit ((48 + k).toUInt8 :: rest) = .done k rest := by
  have h : ((48 + k).toUInt8).toNat = 48 + k := by
    simp only [Byte.toNat_natToUInt8]
    omega
  simp only [parseDigit, Byte.le_iff_toNat, Byte.toNat_lit, h]
  rw [if_pos (by omega)]
  congr 1
  omega

theorem reads_parseCode {code : Nat} (hc : code < 1000) :
    Reads parseCode (codeDigits code) code.toUInt16 := by
  have digit : ∀ {k}, k < 10 → Reads parseDigit [(48 + k).toUInt8] k :=
    fun hk => reads_cons rfl (parseDigit_digit hk) (reads_done rfl)
  exact ((digit (by omega)).andThen ((digit (by omega)).andThen ((digit (by omega)).andThen
    (reads_done (by congr 1; omega))))).of_eq rfl

theorem isReasonByte_ne {b : UInt8} (h : isReasonByte b = true) : b ≠ 13 ∧ b ≠ 10 := by
  constructor <;> rintro rfl <;> exact absurd h (by decide)

theorem reads_parseReason {reason : List UInt8} (h : ∀ b ∈ reason, isReasonByte b = true)
    (e : LineEnd) : Reads parseReason (reason ++ e.bytes) () := by
  induction reason with
  | nil =>
    exact reads_lineEnd rfl (fun r => by simp [parseReason]) (reads_expect 10 .status)
      (fun r => by simp [parseReason]) e
  | cons b bs ih =>
    obtain ⟨h13, h10⟩ := isReasonByte_ne (h b (.head _))
    exact reads_cons rfl (fun r => by simp [parseReason, h13, h10, h b (.head _)])
      (ih fun x hx => h x (.tail _ hx))

theorem reads_parseStatusEnd {reason : Option (List UInt8)}
    (h : ∀ r ∈ reason, ∀ b ∈ r, isReasonByte b = true) (e : LineEnd) :
    Reads parseStatusEnd (statusEndBytes reason e) () := by
  cases reason with
  | none =>
    exact reads_lineEnd rfl (fun r => by simp [parseStatusEnd]) (reads_expect 10 .status)
      (fun r => by simp [parseStatusEnd]) e
  | some r =>
    exact reads_cons rfl (fun _ => by simp [parseStatusEnd]) (reads_parseReason (h r rfl) e)

theorem isHeaderNameToken_ne {b : UInt8} (h : isHeaderNameToken b = true) :
    b ≠ 58 ∧ b ≠ 13 ∧ b ≠ 10 := by
  refine ⟨?_, ?_, ?_⟩ <;> rintro rfl <;> exact absurd h (by decide)

theorem reads_parseName {name : List UInt8} (h : ∀ b ∈ name, isHeaderNameToken b = true) :
    Reads parseName (name ++ [58]) () := by
  induction name with
  | nil => exact reads_cons rfl (fun r => by simp [parseName]) (reads_done rfl)
  | cons b bs ih =>
    exact reads_cons rfl
      (fun r => by simp [parseName, (isHeaderNameToken_ne (h b (.head _))).1, h b (.head _)])
      (ih fun x hx => h x (.tail _ hx))

/-- After a value the line end is read as `valueEnd` reads it. -/
theorem reads_valueEnd {p : List UInt8 → Step Unit} (hnil : p [] = .incomplete)
    (h : ∀ b r, isHeaderValueToken b = false → p (b :: r) = valueEnd b r) (e : LineEnd) :
    Reads p e.bytes () :=
  reads_lineEnd hnil (fun r => by rw [h 13 r rfl, valueEnd, if_pos rfl])
    (reads_expect 10 .headerValue) (fun r => by rw [h 10 r rfl]; rfl) e

theorem reads_parseValue {value : List UInt8} (h : ∀ b ∈ value, isHeaderValueToken b = true)
    (e : LineEnd) : Reads parseValue (value ++ e.bytes) () := by
  induction value with
  | nil => exact reads_valueEnd rfl (fun b r hb => by simp [parseValue, hb]) e
  | cons b bs ih =>
    exact reads_cons rfl (fun r => by simp [parseValue, h b (.head _)])
      (ih fun x hx => h x (.tail _ hx))

theorem reads_skipValueSpace {value : List UInt8}
    (h : ∀ b ∈ value, isHeaderValueToken b = true) (e : LineEnd) :
    Reads skipValueSpace (value ++ e.bytes) () := by
  induction value with
  | nil =>
    refine reads_valueEnd rfl (fun b r hb => ?_) e
    have : ¬(b = 32 ∨ b = 9) := by rintro (rfl | rfl) <;> exact absurd hb (by decide)
    simp [skipValueSpace, hb, this]
  | cons b bs ih =>
    have hbs : ∀ x ∈ bs, isHeaderValueToken x = true := fun x hx => h x (.tail _ hx)
    by_cases hs : b = 32 ∨ b = 9
    · exact reads_cons rfl (fun r => by simp [skipValueSpace, hs]) (ih hbs)
    · exact reads_cons rfl (fun r => by simp [skipValueSpace, hs, h b (.head _)])
        (reads_parseValue hbs e)

/-- A header line starts with a name token, which is neither CR nor LF, and
the rest of its name and its value read through the line end. -/
theorem AcceptedField.start (f : AcceptedField) : ∃ n ns, f.name = n :: ns ∧
    isHeaderNameToken n = true ∧ n ≠ 13 ∧ n ≠ 10 ∧
    Reads (fun r => (parseName r).andThen fun _ r => skipValueSpace r)
      ((ns ++ [58]) ++ (f.value ++ f.ending.bytes)) () := by
  obtain ⟨n, ns, hname⟩ := List.exists_cons_of_ne_nil f.name_ne
  have hn := f.name_token n (by rw [hname]; exact .head _)
  have hns : ∀ x ∈ ns, isHeaderNameToken x = true :=
    fun x hx => f.name_token x (by rw [hname]; exact .tail _ hx)
  obtain ⟨-, h13, h10⟩ := isHeaderNameToken_ne hn
  exact ⟨n, ns, hname, hn, h13, h10,
    (reads_parseName hns).andThen (reads_skipValueSpace f.value_token f.ending)⟩

/-- Header lines that fit the slots, then the empty line, read to their count. -/
theorem reads_parseHeaders (fields : List AcceptedField) (e : LineEnd) {slots : Nat}
    (hs : fields.length ≤ slots) :
    Reads (parseHeaders slots) (fields.flatMap AcceptedField.bytes ++ e.bytes) fields.length := by
  induction fields generalizing slots with
  | nil =>
    have hq : Reads (fun r => (expect 10 .newLine r).andThen fun _ r => .done 0 r) [10] 0 :=
      (reads_expect 10 .newLine).andThen (reads_done rfl)
    exact reads_lineEnd (by cases slots <;> rfl) (fun r => by cases slots <;> simp [parseHeaders])
      hq (fun r => by cases slots <;> simp [parseHeaders]) e
  | cons f fs ih =>
    obtain ⟨n, ns, hname, hn, h13, h10, rest⟩ := f.start
    obtain ⟨k, rfl⟩ : ∃ k, slots = k + 1 := ⟨slots - 1, by simp at hs; omega⟩
    have line : Reads (fun r => ((parseName r).andThen fun _ r => skipValueSpace r).andThen
        fun _ r => (parseHeaders k r).andThen fun n r => .done (n + 1) r)
        (((ns ++ [58]) ++ (f.value ++ f.ending.bytes)) ++
          ((fs.flatMap AcceptedField.bytes ++ e.bytes) ++ []))
        (fs.length + 1) :=
      rest.andThen ((ih (show fs.length ≤ k by simp at hs; omega)).andThen (reads_done rfl))
    refine (@reads_cons _ _ _ n _ _ rfl (fun r => by simp [parseHeaders, h13, h10, hn])
      line).of_eq ?_
    simp [AcceptedField.bytes, hname]

/-- A header line that starts while no slot is free is `TooManyHeaders`. -/
theorem parseHeaders_tooMany (fields : List AcceptedField) {slots : Nat}
    (hs : slots < fields.length) (rest : List UInt8) :
    parseHeaders slots (fields.flatMap AcceptedField.bytes ++ rest) = .error .tooManyHeaders := by
  induction fields generalizing slots with
  | nil => simp at hs
  | cons f fs ih =>
    obtain ⟨n, ns, hname, hn, h13, h10, line⟩ := f.start
    have hline := line.append (fs.flatMap AcceptedField.bytes ++ rest)
    simp only [List.append_assoc, List.singleton_append, List.cons_append, List.nil_append] at hline
    cases slots <;> simp only [List.flatMap_cons, AcceptedField.bytes, hname, List.append_assoc,
      List.cons_append, List.nil_append, parseHeaders, if_neg h13, if_neg h10, hn,
      Bool.not_true, Bool.false_eq_true, if_false]
    rw [hline, Step.done_andThen, ih (by simp at hs; omega)]
    rfl

/-! ## The whole head -/

/-- The status line `parseHead` reads after the empty lines: its code. -/
def statusLine (input : List UInt8) : Step UInt16 :=
  (parseVersion input).andThen fun _ r =>
  (expect 32 .version r).andThen fun _ r =>
  (parseCode r).andThen fun code r =>
  (parseStatusEnd r).andThen fun _ r => .done code r

/-- `parse_head` is the empty lines and the status line, then the header lines. -/
theorem parseHead_eq (slots : Nat) (buf : List UInt8) :
    parseHead slots buf =
      ((skipEmptyLines buf).andThen fun _ r => statusLine r).andThen fun code r =>
        (parseHeaders slots r).andThen fun _ r => .done code r := by
  simp only [parseHead, statusLine, Step.andThen_assoc, Step.done_andThen]

/-- The bytes of an accepted head up to its header lines. -/
def AcceptedHead.statusBytes (a : AcceptedHead) : List UInt8 :=
  a.emptyLines.flatMap LineEnd.bytes ++ (utf8Bytes "HTTP/1." ++ (if a.minor then 49 else 48) ::
    32 :: (codeDigits a.code ++ statusEndBytes a.reason a.statusEnding))

theorem AcceptedHead.bytes_eq (a : AcceptedHead) :
    a.bytes = a.statusBytes ++ (a.fields.flatMap AcceptedField.bytes ++ a.ending.bytes) := by
  simp [AcceptedHead.bytes, AcceptedHead.statusBytes]

/-- The empty lines and the status line of an accepted head read to its code. -/
theorem reads_statusBytes (a : AcceptedHead) :
    Reads (fun input => (skipEmptyLines input).andThen fun _ r => statusLine r) a.statusBytes
      a.code.toUInt16 := by
  have line : Reads statusLine
      (72 :: ([84, 84, 80, 47, 49, 46] ++ [if a.minor then 49 else 48] ++ ([32] ++
        (codeDigits a.code ++ (statusEndBytes a.reason a.statusEnding ++ [])))))
      a.code.toUInt16 :=
    (reads_parseVersion a.minor).andThen ((reads_expect 32 .version).andThen
      ((reads_parseCode a.code_lt).andThen
        ((reads_parseStatusEnd a.reason_byte a.statusEnding).andThen (reads_done rfl))))
  exact (reads_skipEmptyLines (by decide) (by decide) line a.emptyLines).of_eq
    (by simp [AcceptedHead.statusBytes]; rfl)

/-- An accepted head with no more fields than slots reads to its code. -/
theorem reads_acceptedHead (a : AcceptedHead) {slots : Nat} (hs : a.fields.length ≤ slots) :
    Reads (parseHead slots) a.bytes a.code.toUInt16 := by
  rw [funext (parseHead_eq slots), a.bytes_eq, ← List.append_nil (_ ++ a.ending.bytes)]
  exact (reads_statusBytes a).andThen
    ((reads_parseHeaders a.fields a.ending hs).andThen (reads_done rfl))

/-- Through the status line of an accepted head, the parse is at its header lines. -/
theorem parseHead_accepted_append (a : AcceptedHead) (slots : Nat) (rest : List UInt8) :
    parseHead slots (a.bytes ++ rest) =
      (parseHeaders slots
        (a.fields.flatMap AcceptedField.bytes ++ (a.ending.bytes ++ rest))).andThen
          fun _ r => .done a.code.toUInt16 r := by
  rw [parseHead_eq, a.bytes_eq, List.append_assoc, List.append_assoc, (reads_statusBytes a).append,
    Step.done_andThen]

/-- A well-formed head with no more header fields than slots, followed by any
bytes, parses `Complete` with its status code and its own length. -/
theorem parse_head_append (h : ResponseHead) {slots : Nat} (hs : h.fields.length ≤ slots)
    (rest : List UInt8) :
    Response.parse slots (h.bytes ++ rest) = .ok (.complete h.bytes.length h.code.toUInt16) := by
  rw [← h.toAccepted_bytes]
  simp only [Response.parse, (reads_acceptedHead h.toAccepted (by simpa [ResponseHead.toAccepted]
    using hs)).append, List.length_append, Nat.add_sub_cancel]
  rfl

/-- Every proper prefix of such a head parses `Partial`. -/
theorem parse_head_truncated (h : ResponseHead) {slots : Nat} (hs : h.fields.length ≤ slots)
    {k : Nat} (hk : k < h.bytes.length) :
    Response.parse slots (h.bytes.take k) = .ok .incomplete := by
  rw [← h.toAccepted_bytes] at hk ⊢
  simp only [Response.parse, (reads_acceptedHead h.toAccepted (by simpa [ResponseHead.toAccepted]
    using hs)).truncated k hk]

/-- With more header fields than slots the parse is `TooManyHeaders`,
whatever follows the head. -/
theorem parse_head_append_tooManyHeaders (h : ResponseHead) {slots : Nat}
    (hs : slots < h.fields.length) (rest : List UInt8) :
    Response.parse slots (h.bytes ++ rest) = .error .tooManyHeaders := by
  rw [← h.toAccepted_bytes]
  simp only [Response.parse, parseHead_accepted_append,
    parseHeaders_tooMany h.toAccepted.fields (by simpa [ResponseHead.toAccepted] using hs)]
  rfl

end Rustdcr.Httparse
