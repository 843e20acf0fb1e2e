import Mathlib.Data.List.TakeWhile
import PlatformProxy.Port
import PlatformProxy.Proofs.Text.Numeral

/-!
# The arguments that name a port

The one argument of the program is trimmed, loses a plus sign and is read as a number, and the
reader stops at the first digit that makes the number too large. None of this is visible in what is
accepted: blanks, a plus sign or none, a numeral, and blanks. Zeros in front do not make a number
large, however many there are.

An argument that names no port is given back as it came, with its blanks, for the user to see.

## Main definitions

* `Port.Names` — the texts that name a port

## Main results

* `Text.trim_append`, `Text.exists_trim` — trimming takes off the blanks at the ends
* `Port.read_eq_ok_iff` — what is read from one argument
* `Port.arguments_name_ports` — the arguments that are accepted, and what is said of the others
-/

namespace PlatformProxy

namespace Text

/-! ### Trimming -/

variable {before s after : List Char}

/-- Blanks at the ends do not count. -/
theorem trim_append (hbefore : ∀ c ∈ before, isBlank c = true)
    (hafter : ∀ c ∈ after, isBlank c = true) : trim (before ++ s ++ after) = trim s := by
  rw [trim, trim, List.append_assoc, List.dropWhile_append_of_pos hbefore, List.dropWhile_append]
  by_cases hs : s.dropWhile isBlank = []
  · simp [hs, List.dropWhile_eq_nil_iff.mpr hafter]
  · have hafter' : ∀ c ∈ after.reverse, isBlank c = true := by
      intro c hc
      exact hafter c (List.mem_reverse.mp hc)
    rw [if_neg (by simpa using hs), List.reverse_append, List.dropWhile_append_of_pos hafter']

theorem dropWhile_isBlank_eq_self (h : ∀ c ∈ s, isBlank c = false) : s.dropWhile isBlank = s := by
  cases s with
  | nil => rfl
  | cons c s => simp [h c List.mem_cons_self]

theorem trim_eq_self (h : ∀ c ∈ s, isBlank c = false) : trim s = s := by
  have hback : ∀ c ∈ s.reverse, isBlank c = false := by
    intro c hc
    exact h c (List.mem_reverse.mp hc)
  rw [trim, dropWhile_isBlank_eq_self h, dropWhile_isBlank_eq_self hback, List.reverse_reverse]

/-- What is taken off are blanks. -/
theorem exists_trim (s : List Char) : ∃ before after, s = before ++ trim s ++ after ∧
    (∀ c ∈ before, isBlank c = true) ∧ ∀ c ∈ after, isBlank c = true := by
  let rest := (s.dropWhile isBlank).reverse
  have hrest : s.dropWhile isBlank = trim s ++ (rest.takeWhile isBlank).reverse := by
    show _ = (rest.dropWhile isBlank).reverse ++ _
    rw [← List.reverse_append, List.takeWhile_append_dropWhile, List.reverse_reverse]
  refine ⟨s.takeWhile isBlank, (rest.takeWhile isBlank).reverse, ?_, ?_, ?_⟩
  · rw [List.append_assoc, ← hrest, List.takeWhile_append_dropWhile]
  · intro c hc
    exact List.mem_takeWhile_imp hc
  · intro c hc
    exact List.mem_takeWhile_imp (List.mem_reverse.mp hc)

theorem isBlank_eq_false_of_isDigit {c : Char} (h : c.isDigit = true) : isBlank c = false := by
  have hbounds : 48 ≤ c.toNat ∧ c.toNat ≤ 57 := by
    simpa [Char.le_def, UInt32.le_iff_toNat_le] using bounds_of_isDigit h
  -- No interval of blanks meets the digits.
  have hapart : ∀ r ∈ whiteSpace.ranges, r.2 < 48 ∨ 57 < r.1 := by decide
  rw [isBlank, CharSet.contains, List.any_eq_false]
  intro r hr
  have hside := hapart r hr
  rw [Bool.and_eq_true, decide_eq_true_eq, decide_eq_true_eq]
  omega

end Text

namespace Port

/-- A text names a port by its number in ASCII digits. A plus sign may stand before the digits, and
blanks around all of it. -/
inductive Names : (text : List Char) → (port : Nat) → Prop
  | number {before sign digits after : List Char} {port : Nat}
      (hbefore : ∀ c ∈ before, Text.isBlank c = true) (hsign : sign = [] ∨ sign = ['+'])
      (hdigits : Text.IsNumeral digits port) (hport : port ≤ 65535)
      (hafter : ∀ c ∈ after, Text.isBlank c = true) :
      Names (before ++ (sign ++ digits) ++ after) port

theorem exists_dropPlus (s : List Char) :
    ∃ sign, (sign = [] ∨ sign = ['+']) ∧ s = sign ++ dropPlus s := by
  fun_cases dropPlus s with
  | case1 rest => exact ⟨['+'], .inr rfl, rfl⟩
  | case2 s => exact ⟨[], .inl rfl, rfl⟩

section Sign

variable {sign digits : List Char}

theorem dropPlus_append (hsign : sign = [] ∨ sign = ['+'])
    (hdigits : ∀ c ∈ digits, c.isDigit = true) : dropPlus (sign ++ digits) = digits := by
  rcases hsign with rfl | rfl
  · rw [List.nil_append]
    fun_cases dropPlus digits with
    | case1 rest => exact absurd (hdigits '+' List.mem_cons_self) (by decide)
    | case2 => rfl
  · rfl

/-- There is nothing to trim within the blanks. -/
theorem trim_numeral (hsign : sign = [] ∨ sign = ['+'])
    (hdigits : ∀ c ∈ digits, c.isDigit = true) : Text.trim (sign ++ digits) = sign ++ digits := by
  refine Text.trim_eq_self fun c hc => ?_
  rcases List.mem_append.mp hc with hc | hc
  · rcases hsign with rfl | rfl
    · exact absurd hc List.not_mem_nil
    · obtain rfl := List.mem_singleton.mp hc
      decide
  · exact Text.isBlank_eq_false_of_isDigit (hdigits c hc)

end Sign

section Argument

variable {argument : String} {port : Nat}

theorem read_eq_ok_iff : read argument = .ok port ↔ Names argument.toList port := by
  have hread : read argument = .ok port ↔
      Text.readBounded bound (dropPlus (Text.trim argument.toList)) = .ok port := by
    rw [read]
    split <;> simp_all
  rw [hread, Text.readBounded_eq_ok_iff_isNumeral (by decide)]
  constructor
  · rintro ⟨hnumeral, hlt⟩
    obtain ⟨before, after, htext, hbefore, hafter⟩ := Text.exists_trim argument.toList
    obtain ⟨sign, hsign, htrim⟩ := exists_dropPlus (Text.trim argument.toList)
    rw [htrim] at htext
    rw [htext]
    exact .number hbefore hsign hnumeral (Nat.le_of_lt_succ hlt) hafter
  · intro h
    generalize argument.toList = text at h
    obtain ⟨hbefore, hsign, hnumeral, hport, hafter⟩ := h
    rw [Text.trim_append hbefore hafter, trim_numeral hsign hnumeral.digits,
      dropPlus_append hsign hnumeral.digits]
    exact ⟨hnumeral, Nat.lt_succ_of_le hport⟩

/-- There is one reason to refuse an argument, and it carries all of the argument. -/
theorem read_eq_error_iff {e : Error} : read argument = .error e ↔
    e = .notPort argument ∧ ¬ ∃ port, Names argument.toList port := by
  simp only [← read_eq_ok_iff]
  rw [read]
  split
  · simp
  · simp [eq_comm]

end Argument

section Arguments

variable {arguments : List String}

/-- The arguments are one argument, or their number is the fault. -/
theorem parse_cases (arguments : List String) :
    (∃ argument, arguments = [argument] ∧ parse arguments = read argument) ∨
      arguments.length ≠ 1 ∧ parse arguments = .error .notOne := by
  match arguments with
  | [] => exact .inr ⟨by decide, rfl⟩
  | [argument] => exact .inl ⟨argument, rfl, rfl⟩
  | _ :: _ :: _ => exact .inr ⟨by simp, rfl⟩

theorem parse_eq_ok_iff {port : Nat} : parse arguments = .ok port ↔
    ∃ argument, arguments = [argument] ∧ Names argument.toList port := by
  obtain ⟨argument, rfl, hparse⟩ | ⟨hlength, hparse⟩ := parse_cases arguments
  · rw [hparse, read_eq_ok_iff]
    simp
  · rw [hparse]
    constructor
    · nofun
    · rintro ⟨argument, rfl, -⟩
      exact absurd rfl hlength

theorem parse_eq_notOne_iff : parse arguments = .error .notOne ↔ arguments.length ≠ 1 := by
  obtain ⟨argument, rfl, hparse⟩ | ⟨hlength, hparse⟩ := parse_cases arguments
  · rw [hparse, read_eq_error_iff]
    simp
  · simp [hparse, hlength]

theorem parse_eq_notPort_iff {argument : String} : parse arguments = .error (.notPort argument) ↔
    arguments = [argument] ∧ ¬ ∃ port, Names argument.toList port := by
  obtain ⟨argument', rfl, hparse⟩ | ⟨hlength, hparse⟩ := parse_cases arguments
  · rw [hparse, read_eq_error_iff, Error.notPort.injEq, List.cons.injEq, eq_comm,
      and_iff_left rfl]
    exact and_congr_right fun hsame => by rw [hsame]
  · rw [hparse]
    constructor
    · nofun
    · rintro ⟨rfl, -⟩
      exact absurd rfl hlength

/-- **The arguments that name a port.** A port is read if and only if there is one argument and it
names that port. The fault is their number if and only if there is not one, and in every other case
it is the one argument, which is given back untrimmed. -/
theorem arguments_name_ports (arguments : List String) :
    (∀ port, parse arguments = .ok port ↔
      ∃ argument, arguments = [argument] ∧ Names argument.toList port) ∧
    (parse arguments = .error .notOne ↔ arguments.length ≠ 1) ∧
    ∀ argument, parse arguments = .error (.notPort argument) ↔
      arguments = [argument] ∧ ¬ ∃ port, Names argument.toList port :=
  ⟨fun _ => parse_eq_ok_iff, parse_eq_notOne_iff, fun _ => parse_eq_notPort_iff⟩

end Arguments

example : parse ["\u3000 +00080\n"] = .ok 80 := by decide +kernel

example : parse [" 65536"] = .error (.notPort " 65536") := by decide +kernel

end Port

end PlatformProxy
