import BuildTrace.Text.Case
import BuildTrace.Text.Digit
import Mathlib.Data.List.Infix

/-!
# Small letters

Texts of ASCII characters are written in small letters character by character. The other way round,
a small text of ASCII characters comes from such a text, unless it has a `k`: that is the small
letter of the Kelvin sign, too.

## Main definitions

* `Text.IsPlain`: the characters that are the small forms of ASCII characters only;
* `Text.IsSimple`: the characters that are made small as in ASCII.

## Main results

* `Text.lower_of_isSimple`: the small form of a text of simple characters;
* `Text.isSimple_of_isDigit`: digits are simple;
* `Text.exists_of_suffix_lower`: what a plain end of a small text is the small form of;
* `Text.lower_append_dash`: what stands on both sides of a dash is made small on its own.
-/

namespace BuildTrace.Text

variable {c : Char} {before s tail : List Char}

/-- The character is the small form of ASCII characters only. -/
def IsPlain (c : Char) : Prop := c.toNat < 128 ∧ c ≠ 'k'

instance : DecidablePred IsPlain := fun c => inferInstanceAs (Decidable (c.toNat < 128 ∧ c ≠ 'k'))

/-- Only letters change when they are made small, and they become letters. -/
theorem toLower_cases (c : Char) :
    c.toLower = c ∨ c.isAlpha = true ∧ c.toLower.isAlpha = true := by
  by_cases hupper : c.val ≥ 'A'.val ∧ c.val ≤ 'Z'.val
  · have hbounds : 65 ≤ c.toNat ∧ c.toNat ≤ 90 := hupper
    have hval : c.toLower.toNat = c.toNat + 32 := (congrArg Char.toNat (dif_pos hupper)).trans
      (Nat.mod_eq_of_lt (show c.toNat + 32 < 4294967296 by omega))
    have hcapital : c.isUpper = true := decide_eq_true hupper
    have hfirst : 97 ≤ c.toLower.toNat := by omega
    have hlast : c.toLower.toNat ≤ 122 := by omega
    have hsmall : c.toLower.isLower = true :=
      (Bool.and_eq_true _ _).mpr ⟨decide_eq_true hfirst, decide_eq_true hlast⟩
    exact .inr ⟨(Bool.or_eq_true _ _).mpr (.inl hcapital), (Bool.or_eq_true _ _).mpr (.inr hsmall)⟩
  · exact .inl (dif_neg hupper)

/-- Letters are ASCII characters, behind the digits. -/
theorem bounds_of_isAlpha (h : c.isAlpha = true) : 65 ≤ c.toNat ∧ c.toNat ≤ 122 := by
  have hcases : c.isUpper = true ∨ c.isLower = true := Bool.or_eq_true_iff.mp h
  rcases hcases with hupper | hlower
  · have hbounds : 65 ≤ c.toNat ∧ c.toNat ≤ 90 := of_decide_eq_true hupper
    omega
  · have hbounds : 97 ≤ c.toNat ∧ c.toNat ≤ 122 :=
      (Bool.and_eq_true_iff.mp hlower).imp of_decide_eq_true of_decide_eq_true
    omega

theorem bounds_of_isDigit (h : c.isDigit = true) : 48 ≤ c.toNat ∧ c.toNat ≤ 57 := by
  rw [Char.isDigit, Bool.and_eq_true, decide_eq_true_eq, decide_eq_true_eq] at h
  exact h

/-- Only ASCII characters become ASCII characters when letters are made small. -/
theorem toNat_lt_of_toLower (h : c.toLower.toNat < 128) : c.toNat < 128 := by
  by_cases hupper : c.val ≥ 'A'.val ∧ c.val ≤ 'Z'.val
  · have hbound : c.toNat ≤ 90 := hupper.2
    omega
  · have hsame : c.toLower = c := dif_neg hupper
    rwa [hsame] at h

theorem lowerChar_of_lt (h : c.toNat < 128) : lowerChar c = [c.toLower] := if_pos h

/-! ## The small forms of other characters -/

/-- The small letters of a run are no ASCII characters, that of the Kelvin sign apart. -/
theorem caseRuns_bounds : ∀ run ∈ caseRuns,
    (run.first = 0x212a ∧ run.last = 0x212a ∧ run.shift = -8383) ∨
      128 ≤ run.first + run.shift ∧ (run.last + run.shift < 0xd800 ∨
        0xdfff < run.first + run.shift ∧ run.last + run.shift < 0x110000) := by
  decide +kernel

/-- The small form of a character ends with no plain character, unless it is the usual one. -/
theorem lowerChar_cases (c : Char) :
    lowerChar c = [c.toLower] ∨
      ∃ front last, lowerChar c = front ++ [last] ∧ ¬IsPlain last := by
  by_cases hascii : c.toNat < 128
  · exact .inl (lowerChar_of_lt hascii)
  refine .inr ?_
  rw [lowerChar, if_neg hascii]
  by_cases hdotted : c.toNat = 0x130
  · exact ⟨['i'], Char.ofNat 0x307, if_pos hdotted, by decide⟩
  rw [if_neg hdotted]
  split
  next run hrun =>
    refine ⟨[], _, rfl, ?_⟩
    have hcontains := List.find?_some hrun
    simp only [CaseRun.contains, Bool.and_eq_true, decide_eq_true_eq] at hcontains
    obtain ⟨⟨hfirst, hlast⟩, -⟩ := hcontains
    rcases caseRuns_bounds run (List.mem_of_find?_eq_some hrun) with
      ⟨hkelvin, hkelvin', hshift⟩ | ⟨hascii', hvalid⟩
    · have hc : c.toNat = 0x212a := by omega
      rw [hc, hshift]
      decide
    -- The small letter is a character of its own, and lies behind those of ASCII.
    · have hchar : ((c.toNat : Int) + run.shift).toNat.isValidChar := by
        rw [Nat.isValidChar]
        omega
      have hsmall : (Char.ofNat ((c.toNat : Int) + run.shift).toNat).toNat
          = ((c.toNat : Int) + run.shift).toNat := by
        rw [Char.ofNat, dif_pos hchar]
        rfl
      rw [IsPlain, hsmall]
      omega
  · exact ⟨[], c, rfl, fun hplain => hascii hplain.1⟩

/-- The small form of a text begins with that of its first character. -/
theorem exists_lowerFrom_cons (before : List Char) (c : Char) (s : List Char) :
    ∃ small, lowerFrom before (c :: s) = small ++ lowerFrom (c :: before) s ∧
      (small = [c.toLower] ∨ ∃ front last, small = front ++ [last] ∧ ¬IsPlain last) := by
  by_cases hsigma : c = 'Σ'
  · refine ⟨_, rfl, .inr ?_⟩
    rw [if_pos hsigma]
    split
    · exact ⟨[], 'ς', rfl, by decide⟩
    · exact ⟨[], 'σ', rfl, by decide⟩
  · refine ⟨lowerChar c, ?_, lowerChar_cases c⟩
    rw [lowerFrom, if_neg hsigma]

/-! ## Texts -/

/-- The character is made small as in ASCII, whatever is around it. -/
def IsSimple (c : Char) : Prop := c ≠ 'Σ' ∧ lowerChar c = [c.toLower]

theorem isSimple_of_lt (h : c.toNat < 128) : IsSimple c := by
  refine ⟨?_, lowerChar_of_lt h⟩
  rintro rfl
  exact absurd h (by decide)

/-- The digits of all scripts stay as they are. -/
theorem isSimple_of_isDigit (h : isDigit c = true) : IsSimple c ∧ c.toLower = c := by
  have hranges : ∀ range ∈ digitRanges, 0x130 < range.1 ∧
      ∀ run ∈ caseRuns, range.2 < run.first ∨ run.last < range.1 := by
    decide +kernel
  rw [isDigit, Bool.or_eq_true, Bool.and_eq_true, decide_eq_true_eq] at h
  rcases h with h | ⟨hascii, h⟩
  · have hbounds := bounds_of_isDigit h
    refine ⟨isSimple_of_lt (by omega), dif_neg fun hupper => ?_⟩
    have hcapital : 65 ≤ c.toNat := hupper.1
    omega
  · obtain ⟨range, hrange, hin⟩ := List.any_eq_true.mp h
    obtain ⟨hdotted, hruns⟩ := hranges range hrange
    simp only [Bool.and_eq_true, decide_eq_true_eq] at hin
    have hsame : c.toLower = c := by
      refine dif_neg fun hupper => ?_
      have hcapital : c.toNat ≤ 90 := hupper.2
      omega
    -- No run of capital letters has the digit in it, so it is no sigma either.
    have hnone : ∀ run ∈ caseRuns, run.contains c.toNat = false := by
      intro run hrun
      have hplace := hruns run hrun
      simp only [CaseRun.contains, Bool.and_eq_false_iff, decide_eq_false_iff_not]
      omega
    have hfind : caseRuns.find? (·.contains c.toNat) = none :=
      List.find?_eq_none.mpr fun run hrun => by simp [hnone run hrun]
    refine ⟨⟨?_, ?_⟩, hsame⟩
    · rintro rfl
      have hsigma : caseRuns.any (·.contains 'Σ'.toNat) = true := by decide +kernel
      obtain ⟨run, hrun, hcontains⟩ := List.any_eq_true.mp hsigma
      rw [hnone run hrun] at hcontains
      cases hcontains
    · rw [lowerChar, if_neg (by omega), if_neg (by omega), hfind, hsame]

theorem lowerFrom_of_isSimple (h : ∀ c ∈ s, IsSimple c) (before : List Char) :
    lowerFrom before s = s.map Char.toLower := by
  induction s generalizing before with
  | nil => rfl
  | cons c s ih =>
    obtain ⟨⟨hsigma, hc⟩, hs⟩ := List.forall_mem_cons.mp h
    rw [lowerFrom, if_neg hsigma, hc, ih hs]
    rfl

/-- A text of simple characters is written in small letters character by character. -/
theorem lower_of_isSimple (h : ∀ c ∈ s, IsSimple c) : lower s = s.map Char.toLower :=
  lowerFrom_of_isSimple h []

/-- So is a text of ASCII characters. -/
theorem lower_of_forall (h : ∀ c ∈ s, c.toNat < 128) : lower s = s.map Char.toLower :=
  lower_of_isSimple fun c hc => isSimple_of_lt (h c hc)

/-- A small text with only plain characters is the small form of its characters. -/
theorem map_toLower_of_lowerFrom (h : ∀ c ∈ lowerFrom before s, IsPlain c) :
    s.map Char.toLower = lowerFrom before s := by
  induction s generalizing before with
  | nil => rfl
  | cons c s ih =>
    obtain ⟨small, heq, hsmall⟩ := exists_lowerFrom_cons before c s
    rw [heq] at h ⊢
    obtain ⟨hplain, hrest⟩ := List.forall_mem_append.mp h
    rcases hsmall with rfl | ⟨front, last, rfl, hlast⟩
    · rw [List.map_cons, ih hrest, List.singleton_append]
    · exact absurd (hplain last (by simp)) hlast

theorem exists_of_suffix_lowerFrom (htail : ∀ c ∈ tail, IsPlain c)
    (h : tail <:+ lowerFrom before s) :
    ∃ front rest, s = front ++ rest ∧ rest.map Char.toLower = tail := by
  induction s generalizing before with
  | nil => exact ⟨[], [], rfl, (List.suffix_nil.mp h).symm⟩
  | cons c s ih =>
    obtain ⟨small, heq, hsmall⟩ := exists_lowerFrom_cons before c s
    rw [heq] at h
    -- The end either leaves the first character alone, or has all of its small form.
    by_cases hrest : tail <:+ lowerFrom (c :: before) s
    · obtain ⟨front, rest, rfl, htail⟩ := ih hrest
      exact ⟨c :: front, rest, rfl, htail⟩
    · obtain ⟨part, hpart, hne, rfl⟩ : ∃ part, part <:+ small ∧ part ≠ [] ∧
          tail = part ++ lowerFrom (c :: before) s := by
        obtain ⟨lead, hlead⟩ := h
        rcases List.append_eq_append_iff.mp hlead with ⟨part, rfl, rfl⟩ | ⟨part, -, hshort⟩
        · exact ⟨part, List.suffix_append lead part, fun hnil => hrest (by simp [hnil]), rfl⟩
        · exact absurd ⟨part, hshort.symm⟩ hrest
      obtain ⟨hplain, hplains⟩ := List.forall_mem_append.mp htail
      rcases hsmall with rfl | ⟨front, last, rfl, hlast⟩
      · obtain rfl : part = [c.toLower] := by
          rcases List.suffix_cons_iff.mp hpart with hpart | hpart
          · exact hpart
          · exact absurd (List.suffix_nil.mp hpart) hne
        exact ⟨[], c :: s, rfl, by rw [List.map_cons, map_toLower_of_lowerFrom hplains]; rfl⟩
      · rcases List.suffix_concat_iff.mp hpart with hnil | ⟨part, rfl, -⟩
        · exact absurd hnil hne
        · exact absurd (hplain last (by simp)) hlast

/-- A plain end of a small text is the small form of an end of the text. -/
theorem exists_of_suffix_lower (h : tail <:+ lower s) (htail : ∀ c ∈ tail, IsPlain c) :
    ∃ front rest, s = front ++ rest ∧ rest.map Char.toLower = tail :=
  exists_of_suffix_lowerFrom htail h

/-! ## Dashes -/

/-- A dash is where a word ends. -/
theorem meetsCased_append_dash (s t : List Char) : meetsCased (s ++ '-' :: t) = meetsCased s := by
  have hdash : ¬isCaseIgnorable '-' = true := by decide
  rw [meetsCased, meetsCased, List.dropWhile_append, List.dropWhile_cons_of_neg hdash]
  cases s.dropWhile isCaseIgnorable with
  | nil => exact (by decide : isCased '-' = false)
  | cons c rest => rfl

/-- What precedes a dash does not matter behind it. -/
theorem lowerFrom_append_dash (before front s : List Char) :
    lowerFrom (before ++ '-' :: front) s = lowerFrom before s := by
  induction s generalizing before with
  | nil => rfl
  | cons c s ih => rw [lowerFrom, lowerFrom, meetsCased_append_dash, ← List.cons_append, ih]

/-- What stands on both sides of a dash is made small on its own. -/
theorem lower_append_dash (s t : List Char) :
    lower (s ++ '-' :: t) = lower s ++ '-' :: lower t := by
  have hfrom : ∀ before,
      lowerFrom before (s ++ '-' :: t) = lowerFrom before s ++ '-' :: lower t := by
    induction s with
    | nil =>
      intro before
      have hdash : lowerFrom before ('-' :: t) = '-' :: lowerFrom ('-' :: before) t := rfl
      exact hdash.trans (congrArg ('-' :: ·) (lowerFrom_append_dash [] before t))
    | cons c s ih =>
      intro before
      rw [List.cons_append, lowerFrom, lowerFrom, meetsCased_append_dash, ih, List.append_assoc]
  exact hfrom []

end BuildTrace.Text
