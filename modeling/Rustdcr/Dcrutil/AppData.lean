import Mathlib.Data.List.Basic
import Mathlib.Data.String.Basic
import Mathlib.Tactic.PushNeg

/-!
# Application data directory (`dcrutil::app_data`)

`get_app_data_dir(app_name, roaming)` picks an OS-specific directory under
the home directory. The model runs it for an explicit `env::consts::OS` and
an explicit environment (`Env`: what `dirs::home_dir` and `env::var`
answer), in `Except Panic`: `retrieve_from_os` slices `app_name` by byte
index, and Rust panics when byte 1 is not a character boundary.

* `getAppDataDir_panics_iff` — with a home directory found, the call panics
  exactly when the name is neither `""` nor `"."` and, after one leading `.`
  is stripped, starts with a character of more than one UTF-8 byte.
-/

namespace Rustdcr.Dcrutil

/-- A Rust panic; the only one here is slicing a string off a character boundary. -/
inductive Panic where
  | notCharBoundary (index : Nat) (s : String)
  deriving DecidableEq, Repr

/-- The characters filling the first `n` bytes of `cs`, and the rest, when
byte `n` is a character boundary. -/
def splitAtByte : List Char → Nat → Option (List Char × List Char)
  | cs, 0 => some ([], cs)
  | [], _ + 1 => none
  | c :: cs, n + 1 =>
    if c.utf8Size ≤ n + 1 then
      (splitAtByte cs (n + 1 - c.utf8Size)).map fun (a, b) => (c :: a, b)
    else none

/-- `&s[..n]`. -/
def sliceTo (s : String) (n : Nat) : Except Panic String :=
  match splitAtByte s.data n with
  | some (a, _) => .ok ⟨a⟩
  | none => .error (.notCharBoundary n s)

/-- `&s[n..]`. -/
def sliceFrom (s : String) (n : Nat) : Except Panic String :=
  match splitAtByte s.data n with
  | some (_, b) => .ok ⟨b⟩
  | none => .error (.notCharBoundary n s)

/-- `str::to_ascii_uppercase`. -/
def toAsciiUppercase (s : String) : String := s.map Char.toUpper

/-- `str::to_ascii_lowercase`. -/
def toAsciiLowercase (s : String) : String := s.map Char.toLower

/-- `str::strip_prefix` with a character pattern. -/
def stripPrefix (s : String) (c : Char) : Option String :=
  match s.data with
  | c' :: rest => if c' = c then some ⟨rest⟩ else none
  | [] => none

/-- `Path::join` on a POSIX path: an absolute component replaces the path,
any other is appended, after a separator unless the path is empty or ends
in one. -/
def join (path component : String) : String :=
  if component.startsWith "/" then component
  else if path.isEmpty || path.endsWith "/" then path ++ component
  else path ++ "/" ++ component

/-- What the process environment answers: `dirs::home_dir()` and `env::var`. -/
structure Env where
  homeDir : Option String
  var : String → Option String

/-- `DirData`. -/
structure DirData where
  os : String
  appName : String
  roaming : Bool

/-- The `match self.os` of `retrieve_from_os`, given the two spellings of the name. -/
def DirData.osDir (env : Env) (d : DirData) (homeDir appNameUpper appNameLower : String) :
    Option String :=
  match d.os with
  | "windows" =>
    match env.var "LOCALAPPDATA" with
    | some localAppData =>
      if localAppData.isEmpty || d.roaming then
        match env.var "APPDATA" with
        | some appData => some (join appData appNameUpper)
        | none => none
      else some (join localAppData appNameUpper)
    | none => none
  | "macos" =>
    if !homeDir.isEmpty then
      some (join (join (join homeDir "Library") "Application Support") appNameUpper)
    else none
  | "plan9" =>
    if !homeDir.isEmpty then none
    else some (join homeDir appNameLower)
  | _ =>
    if homeDir.isEmpty then none
    else some (join homeDir ("." ++ appNameLower))

/- On Plan 9 the emptiness test is the other way round from the other
branches: a non-empty home directory gives no directory. -/
example : DirData.osDir ⟨some "/usr/glenda", fun _ => none⟩ ⟨"plan9", "dcrd", false⟩
    "/usr/glenda" "Dcrd" "dcrd" = none := by decide

/- On Windows an unset `LOCALAPPDATA` gives no directory even with `APPDATA`
set, although the comment on the branch says it falls back to `APPDATA`. -/
example :
    DirData.osDir ⟨some "C:/Users/u", fun v => if v = "APPDATA" then some "C:/AppData" else none⟩
      ⟨"windows", "dcrd", false⟩ "C:/Users/u" "Dcrd" "dcrd" = none := by decide

/-- `DirData::retrieve_from_os`: the name with its first byte upper- and
lower-cased (`app_name[..1]`, `app_name[1..]`), then the OS branch. -/
def DirData.retrieveFromOs (env : Env) (d : DirData) (homeDir : String) :
    Except Panic (Option String) := do
  let upperHead ← sliceTo d.appName 1
  let upperTail ← sliceFrom d.appName 1
  let lowerHead ← sliceTo d.appName 1
  let lowerTail ← sliceFrom d.appName 1
  return d.osDir env homeDir (toAsciiUppercase upperHead ++ upperTail)
    (toAsciiLowercase lowerHead ++ lowerTail)

/-- `DirData::get_app_data_dir`. -/
def DirData.getAppDataDir (env : Env) (d : DirData) : Except Panic (Option String) :=
  if d.appName.isEmpty || d.appName == "." then .ok none
  else
    let d := match stripPrefix d.appName '.' with
      | some e => { d with appName := e }
      | none => d
    match env.homeDir with
    | some dir => d.retrieveFromOs env dir
    | none =>
      match env.var "HOME" with
      | some val => d.retrieveFromOs env val
      | none => .ok none

/-- `get_app_data_dir`, on the target whose `env::consts::OS` is `os`. -/
def getAppDataDir (os : String) (env : Env) (appName : String) (roaming : Bool) :
    Except Panic (Option String) :=
  DirData.getAppDataDir env ⟨os, appName, roaming⟩

/-! ## Where the call panics -/

/-- The home directory `get_app_data_dir` finds: `dirs::home_dir()`, else `$HOME`. -/
def Env.home (env : Env) : Option String :=
  match env.homeDir with
  | some dir => some dir
  | none => env.var "HOME"

/-- The name after `strip_prefix('.')`. -/
def strippedName (name : String) : String := (stripPrefix name '.').getD name

/-- Byte 1 of a non-empty name is a boundary exactly when its first character
is one byte long. -/
theorem splitAtByte_one (c : Char) (cs : List Char) :
    splitAtByte (c :: cs) 1 = if c.utf8Size = 1 then some ([c], cs) else none := by
  have := c.utf8Size_pos
  by_cases h : c.utf8Size = 1
  · simp [splitAtByte, h]
  · simp only [splitAtByte, if_neg h]
    rw [if_neg (by omega)]

theorem retrieveFromOs_eq (env : Env) (d : DirData) (home : String) {c : Char}
    {cs : List Char} (h : d.appName.data = c :: cs) :
    d.retrieveFromOs env home =
      if c.utf8Size = 1 then
        .ok (d.osDir env home (toAsciiUppercase ⟨[c]⟩ ++ ⟨cs⟩)
          (toAsciiLowercase ⟨[c]⟩ ++ ⟨cs⟩))
      else .error (.notCharBoundary 1 d.appName) := by
  simp only [DirData.retrieveFromOs, sliceTo, sliceFrom, h, splitAtByte_one]
  split_ifs <;> rfl

theorem getAppDataDir_eq (os : String) (env : Env) (name : String) (roaming : Bool) :
    getAppDataDir os env name roaming =
      if name = "" ∨ name = "." then .ok none
      else
        match env.home with
        | some home => DirData.retrieveFromOs env ⟨os, strippedName name, roaming⟩ home
        | none => .ok none := by
  simp only [getAppDataDir, DirData.getAppDataDir, Bool.or_eq_true, String.isEmpty_iff,
    beq_iff_eq, strippedName]
  split_ifs
  · rfl
  · cases stripPrefix name '.' <;> cases h : env.homeDir <;> simp [Env.home, h]

theorem strippedName_cons {name : String} (h0 : name ≠ "") (h1 : name ≠ ".") :
    ∃ c cs, (strippedName name).data = c :: cs := by
  match name with
  | ⟨[]⟩ => exact absurd rfl h0
  | ⟨a :: t⟩ =>
    by_cases ha : a = '.'
    · subst ha
      cases t with
      | nil => exact absurd rfl h1
      | cons b t => exact ⟨b, t, by simp [strippedName, stripPrefix]⟩
    · exact ⟨a, t, by simp [strippedName, stripPrefix, ha]⟩

/-- With a home directory found, `get_app_data_dir` panics exactly when the
name is neither `""` nor `"."` and, after one leading `.` is stripped,
starts with a character of more than one UTF-8 byte. -/
theorem getAppDataDir_panics_iff (os : String) (env : Env) (name : String) (roaming : Bool)
    {home : String} (hhome : env.home = some home) :
    (∃ p, getAppDataDir os env name roaming = .error p) ↔
      name ≠ "" ∧ name ≠ "." ∧
        ∃ c cs, (strippedName name).data = c :: cs ∧ 1 < c.utf8Size := by
  rw [getAppDataDir_eq, hhome]
  by_cases hn : name = "" ∨ name = "."
  · rw [if_pos hn]
    constructor
    · rintro ⟨p, ⟨⟩⟩
    · rintro ⟨h0, h1, -⟩
      exact absurd hn (by tauto)
  · rw [if_neg hn]
    push_neg at hn
    obtain ⟨c, cs, hc⟩ := strippedName_cons hn.1 hn.2
    dsimp only
    rw [retrieveFromOs_eq env ⟨os, strippedName name, roaming⟩ home hc]
    have := c.utf8Size_pos
    constructor
    · rintro ⟨p, hp⟩
      split_ifs at hp with h1
      exact ⟨hn.1, hn.2, c, cs, hc, by omega⟩
    · rintro ⟨-, -, c', cs', hc', hlt⟩
      rw [hc] at hc'
      cases hc'
      rw [if_neg (by omega)]
      exact ⟨_, rfl⟩

/-- A name whose first character is multi-byte, bare or after a leading `.`,
panics in `app_name[..1]`. -/
theorem getAppDataDir_multibyte_panics :
    getAppDataDir "linux" ⟨some "/home/user", fun _ => none⟩ "é" false =
        .error (.notCharBoundary 1 "é") ∧
      getAppDataDir "linux" ⟨some "/home/user", fun _ => none⟩ ".é" false =
        .error (.notCharBoundary 1 "é") := ⟨rfl, rfl⟩

theorem getAppDataDir_panics_iff_e_acute :
    (⟨some "/home/user", fun _ => none⟩ : Env).home = some "/home/user" ∧
      ((∃ p, getAppDataDir "linux" ⟨some "/home/user", fun _ => none⟩ "é" false =
          .error p) ↔
        "é" ≠ "" ∧ "é" ≠ "." ∧
          ∃ c cs, (strippedName "é").data = c :: cs ∧ 1 < c.utf8Size) :=
  ⟨rfl, getAppDataDir_panics_iff "linux" _ "é" false rfl⟩

end Rustdcr.Dcrutil
