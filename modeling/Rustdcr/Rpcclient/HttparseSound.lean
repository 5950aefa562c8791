import Rustdcr.Rpcclient.Httparse

/-!
# What `httparse` accepts

`reads_acceptedHead` says every accepted head parses. Here is the converse,
for every input. A parser `Parses` a language when what it completes is a
word of the language followed by the rest, and what it runs out on is a
prefix of a word. Each parser `parse_head` calls parses its part of the
`AcceptedHead` grammar, one case per branch of its recursion, and
`Parses.andThen` puts them together, so that:

* `parseHead_eq_done_iff` — `parse_head` completes exactly on an accepted
  head with no more fields than slots, followed by anything, with the head's
  code;
* `parseHead_eq_incomplete_iff` — and runs out exactly on the proper
  prefixes of such heads;
* `parse_eq_complete_iff`, `parse_eq_incomplete_iff`, `parse_eq_error_iff` —
  so `Response::parse` returns `Complete` with the head's length exactly when
  the buffer starts with such a head, `Partial` exactly when it is cut off
  inside one, and an error in every other case.
-/

namespace Rustdcr.Httparse

/-! ## Parsing a language -/

theorem Step.andThen_eq_done {α β : Type} {s : Step α} {k : α → List UInt8 → Step β} {b : β}
    {rest : List UInt8} :
    s.andThen k = .done b rest ↔ ∃ a r, s = .done a r ∧ k a r = .done b rest := by
  cases s <;> simp [Step.andThen, and_assoc]

theorem Step.andThen_eq_incomplete {α β : Type} {s : Step α} {k : α → List UInt8 → Step β} :
    s.andThen k = .incomplete ↔ s = .incomplete ∨ ∃ a r, s = .done a r ∧ k a r = .incomplete := by
  cases s <;> simp [Step.andThen, and_assoc]

/-- At `input`, `p` completes only on a word of `L` followed by the rest, and
runs out only on a prefix of a word. -/
structure ParsesAt {α : Type} (p : List UInt8 → Step α) (L : List UInt8 → α → Prop)
    (input : List UInt8) : Prop where
  done : ∀ {a rest}, p input = .done a rest → ∃ bs, L bs a ∧ input = bs ++ rest
  incomplete : p input = .incomplete → ∃ bs a, L bs a ∧ input <+: bs

/-- `p` parses the words of `L`, a language with a word, at every input. -/
structure Parses {α : Type} (p : List UInt8 → Step α) (L : List UInt8 → α → Prop) : Prop where
  sound : ∀ input, ParsesAt p L input
  word : ∃ bs a, L bs a

section Combinators

variable {α β : Type} {p q : List UInt8 → Step α} {L M : List UInt8 → α → Prop}
  {input : List UInt8}

theorem ParsesAt.of_incomplete (h : p input = .incomplete) (hw : ∃ bs a, L bs a ∧ input <+: bs) :
    ParsesAt p L input :=
  ⟨fun hd => (nomatch h.symm.trans hd), fun _ => hw⟩

/-- `p` is done at `input` with the word `bs` and the value `a`. -/
theorem ParsesAt.of_done (bs : List UInt8) (a : α) {rest : List UInt8} (hL : L bs a)
    (he : input = bs ++ rest) (h : p input = .done a rest) : ParsesAt p L input where
  done hd := by
    cases h.symm.trans hd
    exact ⟨bs, hL, he⟩
  incomplete hi := nomatch h.symm.trans hi

theorem ParsesAt.of_error (e : Error) (h : p input = .error e) : ParsesAt p L input :=
  ⟨fun hd => (nomatch h.symm.trans hd), fun hi => nomatch h.symm.trans hi⟩

/-- Past the bytes `xs`, `p` goes on as `q`: it parses `xs` followed by what
`q` parses. -/
theorem ParsesAt.append (xs : List UInt8) {r : List UInt8} (h : p (xs ++ r) = q r)
    (hq : ParsesAt q M r) (hL : ∀ bs a, M bs a → L (xs ++ bs) a) : ParsesAt p L (xs ++ r) where
  done hd := by
    obtain ⟨bs, hb, rfl⟩ := hq.done (h ▸ hd)
    exact ⟨xs ++ bs, hL _ _ hb, (List.append_assoc _ _ _).symm⟩
  incomplete hi := by
    obtain ⟨bs, a, hb, hpre⟩ := hq.incomplete (h ▸ hi)
    exact ⟨xs ++ bs, a, hL _ _ hb, (List.prefix_append_right_inj xs).2 hpre⟩

theorem Parses.mono (h : Parses p L) (hL : ∀ bs a, L bs a → M bs a) : Parses p M where
  sound input := ⟨fun hd => by
      obtain ⟨bs, hb, he⟩ := (h.sound input).done hd
      exact ⟨bs, hL _ _ hb, he⟩,
    fun hi => by
      obtain ⟨bs, a, hb, hpre⟩ := (h.sound input).incomplete hi
      exact ⟨bs, a, hL _ _ hb, hpre⟩⟩
  word := by
    obtain ⟨bs, a, hb⟩ := h.word
    exact ⟨bs, a, hL _ _ hb⟩

/-- Two parsers in sequence parse the words of the first followed by words of
the second. -/
theorem Parses.andThen {k : α → List UInt8 → Step β} {N : α → List UInt8 → β → Prop}
    (hp : Parses p L) (hk : ∀ a, Parses (k a) (N a)) :
    Parses (fun input => (p input).andThen k)
      fun bs b => ∃ xs a ys, L xs a ∧ N a ys b ∧ bs = xs ++ ys where
  sound input := ⟨fun h => by
      obtain ⟨a, r, hpa, hkr⟩ := Step.andThen_eq_done.1 h
      obtain ⟨xs, hx, rfl⟩ := (hp.sound input).done hpa
      obtain ⟨ys, hy, rfl⟩ := ((hk a).sound r).done hkr
      exact ⟨xs ++ ys, ⟨xs, a, ys, hx, hy, rfl⟩, (List.append_assoc _ _ _).symm⟩,
    fun h => by
      rcases Step.andThen_eq_incomplete.1 h with hpi | ⟨a, r, hpa, hkr⟩
      · -- the first parser ran out: any second word extends its word
        obtain ⟨xs, a, hx, hpre⟩ := (hp.sound input).incomplete hpi
        obtain ⟨ys, b, hy⟩ := (hk a).word
        exact ⟨xs ++ ys, b, ⟨xs, a, ys, hx, hy, rfl⟩, hpre.trans (List.prefix_append _ _)⟩
      · obtain ⟨xs, hx, rfl⟩ := (hp.sound input).done hpa
        obtain ⟨ys, b, hy, hpre⟩ := ((hk a).sound r).incomplete hkr
        exact ⟨xs ++ ys, b, ⟨xs, a, ys, hx, hy, rfl⟩, (List.prefix_append_right_inj xs).2 hpre⟩⟩
  word := by
    obtain ⟨xs, a, hx⟩ := hp.word
    obtain ⟨ys, b, hy⟩ := (hk a).word
    exact ⟨xs ++ ys, b, xs, a, ys, hx, hy, rfl⟩

theorem parses_done (a : α) : Parses (fun r => .done a r) fun bs b => bs = [] ∧ b = a where
  sound _ := .of_done [] a ⟨rfl, rfl⟩ rfl rfl
  word := ⟨[], a, rfl, rfl⟩

end Combinators

/-! ## The status line -/

theorem parses_expect (b : UInt8) (e : Error) : Parses (expect b e) fun bs _ => bs = [b] where
  sound
    | [] => .of_incomplete rfl ⟨[b], (), rfl, List.nil_prefix⟩
    | x :: r => by
      by_cases hx : x = b
      · subst hx
        exact .of_done [x] () rfl rfl (by simp [expect])
      · exact .of_error e (by simp [expect, hx])
  word := ⟨[b], (), rfl⟩

theorem parses_expectAll (e : Error) (bs : List UInt8) :
    Parses (expectAll e bs) fun xs _ => xs = bs where
  sound input := by
    induction bs, input using expectAll.induct e with
    | case1 input => exact .of_done [] () rfl rfl rfl
    | case2 b bs => exact .of_incomplete rfl ⟨b :: bs, (), rfl, List.nil_prefix⟩
    | case3 bs x rest ih =>
      exact .append [x] (by simp [expectAll]) ih fun _ _ h => by rw [h]; rfl
    | case4 b bs x rest hx => exact .of_error e (by simp [expectAll, hx])
  word := ⟨bs, (), rfl⟩

theorem parses_skipEmptyLines :
    Parses skipEmptyLines fun bs _ => ∃ ls : List LineEnd, bs = ls.flatMap LineEnd.bytes where
  sound input := by
    induction input using skipEmptyLines.induct with
    | case1 => exact .of_incomplete rfl ⟨[], (), ⟨[], rfl⟩, List.nil_prefix⟩
    | case2 => exact .of_incomplete rfl ⟨[13, 10], (), ⟨[.crlf], rfl⟩, ⟨[10], rfl⟩⟩
    | case3 rest ih =>
      exact .append [13, 10] (skipEmptyLines_crlf rest) ih
        fun _ _ ⟨ls, h⟩ => ⟨.crlf :: ls, by rw [h]; rfl⟩
    | case4 x rest hx =>
      exact .of_error .newLine (by rw [skipEmptyLines.eq_def]; simp [hx])
    | case5 rest _ ih =>
      exact .append [10] (skipEmptyLines_lf rest) ih fun _ _ ⟨ls, h⟩ => ⟨.lf :: ls, by rw [h]; rfl⟩
    | case6 x rest h13 h10 => exact .of_done [] () ⟨[], rfl⟩ rfl (skipEmptyLines_start h13 h10 rest)
  word := ⟨[], (), [], rfl⟩

theorem parses_parseVersion : Parses parseVersion
    fun bs _ => ∃ minor : Bool, bs = utf8Bytes "HTTP/1." ++ [if minor then 49 else 48] := by
  refine Parses.mono ((parses_expectAll .version _).andThen fun _ =>
    (?_ : Parses _ fun bs (_ : UInt8) => ∃ minor : Bool, bs = [if minor then 49 else 48])) ?_
  · refine ⟨fun
      | [] => .of_incomplete rfl ⟨[48], 0, ⟨false, rfl⟩, List.nil_prefix⟩
      | x :: r => ?_, [48], 0, false, rfl⟩
    by_cases h0 : x = 48
    · exact .of_done [x] 0 ⟨false, by rw [h0]; rfl⟩ rfl (by simp [h0])
    by_cases h1 : x = 49
    · exact .of_done [x] 1 ⟨true, by rw [h1]; rfl⟩ rfl (by simp [h1])
    exact .of_error .version (by simp [h0, h1])
  · rintro _ _ ⟨_, _, _, rfl, ⟨minor, rfl⟩, rfl⟩
    exact ⟨minor, rfl⟩

theorem parses_parseDigit : Parses parseDigit fun bs d => d < 10 ∧ bs = [(48 + d).toUInt8] where
  sound
    | [] => .of_incomplete rfl ⟨_, 0, ⟨by decide, rfl⟩, List.nil_prefix⟩
    | x :: r => by
      by_cases hx : 48 ≤ x ∧ x ≤ 57
      · have hn : 48 ≤ x.toNat ∧ x.toNat ≤ 57 := by simpa [Byte.le_iff_toNat] using hx
        have hb : (48 + (x.toNat - 48)).toUInt8 = x :=
          (Byte.eq_iff_toNat _ _).2 (by simp only [Byte.toNat_natToUInt8]; omega)
        exact .of_done [x] (x.toNat - 48) ⟨by omega, by rw [hb]⟩ rfl (by simp [parseDigit, hx])
      · exact .of_error .status (by simp [parseDigit, hx])
  word := ⟨_, 0, by decide, rfl⟩

theorem parses_parseCode :
    Parses parseCode fun bs c => ∃ n < 1000, c = n.toUInt16 ∧ bs = codeDigits n := by
  refine Parses.mono (parses_parseDigit.andThen fun h => parses_parseDigit.andThen fun t =>
    parses_parseDigit.andThen fun o => parses_done (h * 100 + t * 10 + o).toUInt16) ?_
  rintro _ _ ⟨_, h, _, ⟨hh, rfl⟩, ⟨_, t, _, ⟨ht, rfl⟩, ⟨_, o, _, ⟨ho, rfl⟩, ⟨rfl, rfl⟩, rfl⟩,
    rfl⟩, rfl⟩
  -- the three digits are those of the code they make
  have e1 : (h * 100 + t * 10 + o) / 100 = h := by omega
  have e2 : (h * 100 + t * 10 + o) / 10 % 10 = t := by omega
  have e3 : (h * 100 + t * 10 + o) % 10 = o := by omega
  exact ⟨h * 100 + t * 10 + o, by omega, rfl, by simp [codeDigits, e1, e2, e3]⟩

theorem parses_parseReason : Parses parseReason fun bs _ =>
    ∃ r e, (∀ b ∈ r, isReasonByte b = true) ∧ bs = r ++ LineEnd.bytes e where
  sound input := by
    induction input using parseReason.induct with
    | case1 => exact .of_incomplete rfl ⟨[10], (), ⟨[], .lf, nofun, rfl⟩, List.nil_prefix⟩
    | case2 rest =>
      exact .append [13] (by simp [parseReason]) ((parses_expect 10 .status).sound rest)
        fun _ _ h => ⟨[], .crlf, nofun, by rw [h]; rfl⟩
    | case3 rest _ => exact .of_done [10] () ⟨[], .lf, nofun, rfl⟩ rfl (by simp [parseReason])
    | case4 x rest h13 h10 hx ih =>
      exact .append [x] (by simp [parseReason, h13, h10, hx]) ih
        fun _ _ ⟨r, e, hr, h⟩ => ⟨x :: r, e, List.forall_mem_cons.2 ⟨hx, hr⟩, by rw [h]; rfl⟩
    | case5 x rest h13 h10 hx => exact .of_error .status (by simp [parseReason, h13, h10, hx])
  word := ⟨[10], (), [], .lf, nofun, rfl⟩

theorem parses_parseStatusEnd : Parses parseStatusEnd fun bs _ =>
    ∃ reason e, (∀ r ∈ reason, ∀ b ∈ r, isReasonByte b = true) ∧ bs = statusEndBytes reason e where
  sound
    | [] => .of_incomplete rfl ⟨[10], (), ⟨none, .lf, nofun, rfl⟩, List.nil_prefix⟩
    | b :: rest => by
      by_cases h32 : b = 32
      · subst h32
        exact .append [32] (by simp [parseStatusEnd]) (parses_parseReason.sound rest)
          fun _ _ ⟨r, e, hr, h⟩ =>
            ⟨some r, e, fun _ h' => Option.some.inj h' ▸ hr, by rw [h]; rfl⟩
      by_cases h13 : b = 13
      · subst h13
        exact .append [13] (by simp [parseStatusEnd]) ((parses_expect 10 .status).sound rest)
          fun _ _ h => ⟨none, .crlf, nofun, by rw [h]; rfl⟩
      by_cases h10 : b = 10
      · subst h10
        exact .of_done [10] () ⟨none, .lf, nofun, rfl⟩ rfl (by simp [parseStatusEnd])
      exact .of_error .status (by simp [parseStatusEnd, h32, h13, h10])
  word := ⟨[10], (), none, .lf, nofun, rfl⟩

/-- A status line: the version, a space, the code, and the status line's end. -/
def IsStatusLine (bs : List UInt8) (code : UInt16) : Prop :=
  ∃ (minor : Bool) (n : Nat) (reason : Option (List UInt8)) (e : LineEnd), n < 1000 ∧
    (∀ r ∈ reason, ∀ b ∈ r, isReasonByte b = true) ∧ code = n.toUInt16 ∧
    bs = utf8Bytes "HTTP/1." ++ (if minor then 49 else 48) :: 32 ::
      (codeDigits n ++ statusEndBytes reason e)

theorem parses_statusLine : Parses statusLine IsStatusLine := by
  refine Parses.mono (parses_parseVersion.andThen fun _ => (parses_expect 32 .version).andThen
    fun _ => parses_parseCode.andThen fun code => parses_parseStatusEnd.andThen fun _ =>
      parses_done code) ?_
  rintro _ _ ⟨_, _, _, ⟨minor, rfl⟩, ⟨_, _, _, rfl, ⟨_, _, _, ⟨n, hn, rfl, rfl⟩,
    ⟨_, _, _, ⟨reason, e, hr, rfl⟩, ⟨rfl, rfl⟩, rfl⟩, rfl⟩, rfl⟩, rfl⟩
  exact ⟨minor, n, reason, e, hn, hr, rfl, by simp⟩

/-! ## The header lines -/

/-- A header value, with the spaces before it, then a line end. -/
def IsValue (bs : List UInt8) (_ : Unit) : Prop :=
  ∃ v e, (∀ b ∈ v, isHeaderValueToken b = true) ∧ bs = v ++ LineEnd.bytes e

theorem IsValue.cons {x : UInt8} (hx : isHeaderValueToken x = true) {bs : List UInt8} {u : Unit}
    (h : IsValue bs u) : IsValue (x :: bs) u := by
  obtain ⟨v, e, hv, rfl⟩ := h
  exact ⟨x :: v, e, List.forall_mem_cons.2 ⟨hx, hv⟩, rfl⟩

/-- At a byte that is not a value token the value ends, as `valueEnd` reads it. -/
theorem parsesAt_valueEnd {p : List UInt8 → Step Unit} {x : UInt8}
    (hx : ¬isHeaderValueToken x = true) (h : ∀ r, p (x :: r) = valueEnd x r) (r : List UInt8) :
    ParsesAt p IsValue (x :: r) := by
  by_cases h13 : x = 13
  · subst h13
    exact .append [13] ((h r).trans (by simp [valueEnd]))
      ((parses_expect 10 .headerValue).sound r) fun _ _ he => ⟨[], .crlf, nofun, by rw [he]; rfl⟩
  by_cases h10 : x = 10
  · subst h10
    exact .of_done [10] () ⟨[], .lf, nofun, rfl⟩ rfl ((h r).trans (by simp [valueEnd]))
  exact .of_error .headerValue ((h r).trans (by simp [valueEnd, h13, h10]))

theorem parses_parseValue : Parses parseValue IsValue where
  sound input := by
    induction input using parseValue.induct with
    | case1 => exact .of_incomplete rfl ⟨[10], (), ⟨[], .lf, nofun, rfl⟩, List.nil_prefix⟩
    | case2 x rest hx ih =>
      exact .append [x] (by simp [parseValue, hx]) ih fun _ _ => IsValue.cons hx
    | case3 x rest hx => exact parsesAt_valueEnd hx (fun r => by simp [parseValue, hx]) rest
  word := ⟨[10], (), [], .lf, nofun, rfl⟩

theorem parses_skipValueSpace : Parses skipValueSpace IsValue where
  sound input := by
    induction input using skipValueSpace.induct with
    | case1 => exact .of_incomplete rfl ⟨[10], (), ⟨[], .lf, nofun, rfl⟩, List.nil_prefix⟩
    | case2 x rest hs ih =>
      exact .append [x] (by simp [skipValueSpace, hs]) ih
        fun _ _ => IsValue.cons (by rcases hs with rfl | rfl <;> rfl)
    | case3 x rest hs hx =>
      exact .append [x] (by simp [skipValueSpace, hs, hx]) (parses_parseValue.sound rest)
        fun _ _ => IsValue.cons hx
    | case4 x rest hs hx =>
      exact parsesAt_valueEnd hx (fun r => by simp [skipValueSpace, hs, hx]) rest
  word := ⟨[10], (), [], .lf, nofun, rfl⟩

theorem parses_parseName : Parses parseName fun bs _ =>
    ∃ ns, (∀ b ∈ ns, isHeaderNameToken b = true) ∧ bs = ns ++ [58] where
  sound input := by
    induction input using parseName.induct with
    | case1 => exact .of_incomplete rfl ⟨[58], (), ⟨[], nofun, rfl⟩, List.nil_prefix⟩
    | case2 rest => exact .of_done [58] () ⟨[], nofun, rfl⟩ rfl (by simp [parseName])
    | case3 x rest h58 hx ih =>
      exact .append [x] (by simp [parseName, h58, hx]) ih
        fun _ _ ⟨ns, hns, h⟩ => ⟨x :: ns, List.forall_mem_cons.2 ⟨hx, hns⟩, by rw [h]; rfl⟩
    | case4 x rest h58 hx => exact .of_error .headerName (by simp [parseName, h58, hx])
  word := ⟨[58], (), [], nofun, rfl⟩

/-- Header lines, no more of them than `slots`, then the empty line; `n` is
their count. -/
def IsHeaderLines (slots : Nat) (bs : List UInt8) (n : Nat) : Prop :=
  ∃ (fs : List AcceptedField) (e : LineEnd), fs.length ≤ slots ∧ n = fs.length ∧
    bs = fs.flatMap AcceptedField.bytes ++ e.bytes

theorem IsHeaderLines.word (slots : Nat) : ∃ bs n, IsHeaderLines slots bs n :=
  ⟨[10], 0, [], .lf, Nat.zero_le _, rfl, rfl⟩

theorem parses_parseHeaders (slots : Nat) : Parses (parseHeaders slots) (IsHeaderLines slots) where
  sound input := by
    induction slots, input using parseHeaders.induct with
    | case1 t =>
      obtain ⟨bs, n, hw⟩ := IsHeaderLines.word t
      exact .of_incomplete (by cases t <;> rfl) ⟨bs, n, hw, List.nil_prefix⟩
    | case2 slots rest =>
      refine .append [13] (by cases slots <;> simp [parseHeaders])
        (((parses_expect 10 .newLine).andThen fun _ => parses_done 0).sound rest) ?_
      rintro _ _ ⟨_, _, _, rfl, ⟨rfl, rfl⟩, rfl⟩
      exact ⟨[], .crlf, Nat.zero_le _, rfl, rfl⟩
    | case3 slots rest _ =>
      exact .of_done [10] 0 ⟨[], .lf, Nat.zero_le _, rfl, rfl⟩ rfl
        (by cases slots <;> simp [parseHeaders])
    | case4 slots b rest h13 h10 hb =>
      exact .of_error .headerName (by cases slots <;> simp_all [parseHeaders])
    | case5 b rest h13 h10 hb =>
      exact .of_error .tooManyHeaders (by simp_all [parseHeaders])
    | case6 b rest h13 h10 hb k ih =>
      -- a header line, then the lines that fit the remaining slots
      have hk : Parses (parseHeaders k) (IsHeaderLines k) := ⟨ih, IsHeaderLines.word k⟩
      refine .append [b] (by simp_all [parseHeaders])
        (((parses_parseName.andThen fun _ => parses_skipValueSpace).andThen fun _ =>
          hk.andThen fun n => parses_done (n + 1)).sound rest) ?_
      rintro _ _ ⟨_, _, _, ⟨_, _, _, ⟨ns, hns, rfl⟩, ⟨v, e, hv, rfl⟩, rfl⟩,
        ⟨_, _, _, ⟨fs, e', hfs, rfl, rfl⟩, ⟨rfl, rfl⟩, rfl⟩, rfl⟩
      have hb' : isHeaderNameToken b = true := by simpa using hb
      exact ⟨⟨b :: ns, v, e, List.cons_ne_nil _ _, List.forall_mem_cons.2 ⟨hb', hns⟩, hv⟩ :: fs,
        e', by simpa using hfs, rfl, by simp [AcceptedField.bytes]⟩
  word := IsHeaderLines.word slots

/-! ## The whole head -/

/-- `parse_head` with `slots` slots parses the accepted heads that fit them,
to their codes. -/
theorem parses_parseHead (slots : Nat) : Parses (parseHead slots) fun bs code =>
    ∃ a : AcceptedHead, a.fields.length ≤ slots ∧ bs = a.bytes ∧ code = a.code.toUInt16 := by
  rw [funext (parseHead_eq slots)]
  refine Parses.mono ((parses_skipEmptyLines.andThen fun _ => parses_statusLine).andThen
    fun code => (parses_parseHeaders slots).andThen fun _ => parses_done code) ?_
  rintro _ _ ⟨_, _, _, ⟨_, _, _, ⟨ls, rfl⟩, ⟨minor, n, reason, e, hn, hr, rfl, rfl⟩, rfl⟩,
    ⟨_, _, _, ⟨fs, e', hfs, rfl, rfl⟩, ⟨rfl, rfl⟩, rfl⟩, rfl⟩
  exact ⟨⟨ls, minor, n, hn, reason, hr, e, fs, e'⟩, hfs, by simp [AcceptedHead.bytes], rfl⟩

/-- `parse_head` completes exactly on an accepted head with no more fields
than slots, followed by anything; the code is the head's. -/
theorem parseHead_eq_done_iff {slots : Nat} {buf rest : List UInt8} {code : UInt16} :
    parseHead slots buf = .done code rest ↔
      ∃ a : AcceptedHead, a.fields.length ≤ slots ∧ buf = a.bytes ++ rest ∧
        code = a.code.toUInt16 := by
  constructor
  · intro h
    obtain ⟨_, ⟨a, hs, rfl, rfl⟩, rfl⟩ := ((parses_parseHead slots).sound buf).done h
    exact ⟨a, hs, rfl, rfl⟩
  · rintro ⟨a, hs, rfl, rfl⟩
    exact (reads_acceptedHead a hs).append rest

/-- `parse_head` runs out exactly on the proper prefixes of accepted heads
with no more fields than slots. -/
theorem parseHead_eq_incomplete_iff {slots : Nat} {buf : List UInt8} :
    parseHead slots buf = .incomplete ↔
      ∃ a : AcceptedHead, a.fields.length ≤ slots ∧ ∃ k < a.bytes.length, buf = a.bytes.take k := by
  constructor
  · intro h
    obtain ⟨_, _, ⟨a, hs, rfl, rfl⟩, hpre⟩ := ((parses_parseHead slots).sound buf).incomplete h
    refine ⟨a, hs, buf.length, lt_of_le_of_ne hpre.length_le fun hl => ?_,
      List.prefix_iff_eq_take.1 hpre⟩
    -- the whole head would have been read, and the parse done
    have hd := (reads_acceptedHead a hs).append []
    rw [List.append_nil, ← hpre.eq_of_length hl, h] at hd
    cases hd
  · rintro ⟨a, hs, k, hk, rfl⟩
    exact (reads_acceptedHead a hs).truncated k hk

/-! ## `Response::parse` -/

section Parse

variable {slots : Nat} {buf : List UInt8}

theorem parse_eq_complete_iff {len : Nat} {code : UInt16} :
    Response.parse slots buf = .ok (.complete len code) ↔
      ∃ a : AcceptedHead, a.fields.length ≤ slots ∧ a.bytes <+: buf ∧ len = a.bytes.length ∧
        code = a.code.toUInt16 := by
  constructor
  · intro h
    cases hp : parseHead slots buf <;> simp [Response.parse, hp] at h
    obtain ⟨rfl, rfl⟩ := h
    obtain ⟨a, hs, rfl, rfl⟩ := parseHead_eq_done_iff.1 hp
    exact ⟨a, hs, List.prefix_append _ _, by simp, rfl⟩
  · rintro ⟨a, hs, ⟨t, rfl⟩, rfl, rfl⟩
    simp [Response.parse, (reads_acceptedHead a hs).append t]

theorem parse_eq_incomplete_iff :
    Response.parse slots buf = .ok .incomplete ↔
      ∃ a : AcceptedHead, a.fields.length ≤ slots ∧ ∃ k < a.bytes.length, buf = a.bytes.take k := by
  rw [← parseHead_eq_incomplete_iff]
  cases hp : parseHead slots buf <;> simp [Response.parse, hp]

/-- The parse fails exactly when the buffer neither starts with an accepted
head that fits the slots nor is cut off inside one. -/
theorem parse_eq_error_iff :
    (∃ e, Response.parse slots buf = .error e) ↔
      (¬∃ a : AcceptedHead, a.fields.length ≤ slots ∧ a.bytes <+: buf) ∧
      ¬∃ a : AcceptedHead, a.fields.length ≤ slots ∧
        ∃ k < a.bytes.length, buf = a.bytes.take k := by
  rw [← parse_eq_incomplete_iff]
  rcases hp : Response.parse slots buf with e | _ | ⟨len, code⟩
  · refine iff_of_true ⟨e, rfl⟩ ⟨fun ⟨a, hs, hpre⟩ => ?_, nofun⟩
    have hc := parse_eq_complete_iff.2 ⟨a, hs, hpre, rfl, rfl⟩
    rw [hp] at hc
    cases hc
  · simp
  · refine iff_of_false (by simp) fun h => h.1 ?_
    obtain ⟨a, hs, hpre, -⟩ := parse_eq_complete_iff.1 hp
    exact ⟨a, hs, hpre⟩

end Parse

end Rustdcr.Httparse
