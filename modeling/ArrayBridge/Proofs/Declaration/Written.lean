import ArrayBridge.Declaration.Written
import ArrayBridge.Proofs.Declaration.Settings

/-!
# The grammar of written declarations is conventional

What is relied on in a grammar holds of the one by which the program is run
(`grammar_conventional`), so all that is said of declarations holds of those that are read as text.

What follows a key or a path is the end of what was read, whatever stands in its arguments: names
are read from the left, and the arguments of a name are one group. So what takes an argument gives
back the end of it, and each comma leaves fewer tokens to read than there were. That is why the fuel
of `takeArguments` is enough.
-/

namespace ArrayBridge.Written

open Text

/-! ## Ends -/

@[simp] theorem told_eq_ok_iff {α : Type} {reading : Except ReadError α} {a : α} :
    told reading = .ok a ↔ reading = .ok a := by
  simp [told]

theorem pathUpTo_eq_ok_iff {ts rest path : List Tree} {reading : Except ReadError (List Tree)} :
    pathUpTo ts reading = .ok (path, rest) ↔ reading = .ok rest ∧ path = pathBefore ts rest := by
  cases reading with
  | error e => simp [pathUpTo, Except.map]
  | ok after =>
    simp only [pathUpTo, Except.map, told_eq_ok_iff, Except.ok.injEq, Prod.mk.injEq]
    constructor
    · rintro ⟨rfl, rfl⟩
      exact ⟨rfl, rfl⟩
    · rintro ⟨rfl, rfl⟩
      exact ⟨rfl, rfl⟩

theorem missing_ne_ok {α : Type} {what : Expectation} {ts : List Tree} {a : α} :
    missing what ts ≠ .ok a := by
  cases ts <;> exact nofun

theorem afterKeyNames_suffix {ts rest : List Tree} (h : afterKeyNames ts = .ok rest) :
    rest <:+ ts := by
  fun_induction afterKeyNames ts with
  | case1 name ts ih => exact (ih h).trans ⟨[.separator, .word name], rfl⟩
  | case2 => exact absurd h missing_ne_ok
  | case3 ts =>
    cases h
    exact List.suffix_rfl

theorem afterKey_suffix {ts rest : List Tree} (h : afterKey ts = .ok rest) : rest <:+ ts := by
  unfold afterKey at h
  split at h
  · exact (afterKeyNames_suffix h).trans (List.suffix_cons _ _)
  · exact (afterKeyNames_suffix h).trans ⟨[_, _], rfl⟩
  all_goals cases h

/-- The arguments of a name are one group, or none. -/
theorem afterOptionalArguments_suffix {fuel : Nat} {name : String} {ts rest : List Tree}
    (h : afterOptionalArguments fuel name ts = .ok rest) : rest <:+ ts := by
  have unchanged : ∀ {found : List Tree}, Except.ok (ε := ReadError) found = .ok rest →
      rest <:+ found := by
    intro found same
    cases same
    exact List.suffix_rfl
  unfold afterOptionalArguments at h
  split at h
  · split at h
    · exact unchanged h
    · split at h
      · cases h
      · split at h
        · obtain ⟨_, _, same⟩ := bind_eq_ok_iff.mp h
          exact (unchanged same).trans (List.suffix_cons _ _)
        · obtain ⟨_, _, same⟩ := bind_eq_ok_iff.mp h
          exact (unchanged same).trans ⟨[_, _], rfl⟩
        -- what does not end is no path
        · obtain ⟨_, _, refused⟩ := bind_eq_ok_iff.mp h
          cases refused
        · obtain ⟨_, _, refused⟩ := bind_eq_ok_iff.mp h
          cases refused
        · exact unchanged h
  · exact unchanged h

theorem afterNames_suffix {fuel : Nat} {ts rest : List Tree} (h : afterNames fuel ts = .ok rest) :
    rest <:+ ts := by
  induction fuel generalizing ts with
  | zero =>
    rw [afterNames] at h
    · exact absurd h missing_ne_ok
    · exact nofun
  | succ fuel ih =>
    unfold afterNames at h
    split at h
    · rename_i word behind same
      cases same
      obtain ⟨after, read, h⟩ := bind_eq_ok_iff.mp h
      refine List.IsSuffix.trans ?_ ((afterOptionalArguments_suffix read).trans
        (List.suffix_cons _ _))
      split at h
      · cases h
        exact List.suffix_rfl
      · exact (ih h).trans (List.suffix_cons _ _)
      · cases h
        exact List.suffix_rfl
    · exact absurd h missing_ne_ok

theorem afterPath_suffix {ts rest : List Tree} (h : afterPath? ts = .ok rest) : rest <:+ ts := by
  unfold afterPath? afterPath at h
  split at h
  · exact (afterNames_suffix h).trans (List.suffix_cons _ _)
  · exact afterNames_suffix h
  · exact absurd h missing_ne_ok

/-! ## Arguments -/

section Arguments

variable {σ : Type} {take : Taking (List Tree) Tree σ}

theorem isComma_iff {t : Tree} : t.isComma = true ↔ t = .sign ',' := by
  unfold Tree.isComma
  split <;> simp_all

/-- A comma behind an argument leaves fewer tokens than there were. -/
theorem length_lt_of_taken {s s' : σ} {path ts rest others : List Tree} {comma : Tree}
    (advances : ∀ s path ts s' rest, take s path ts = .ok (s', rest) → rest <:+ ts)
    (key : grammar.key ts = .ok (path, rest))
    (taken : take s path rest = .ok (s', comma :: others)) :
    others.length < ts.length := by
  have behind := afterKey_suffix (pathUpTo_eq_ok_iff.mp key).1
  exact ((advances _ _ _ _ _ taken).trans behind).length_le

theorem takeArguments_nil {fuel : Nat} {s s' : σ} :
    takeArguments take fuel s [] = .ok s' ↔ grammar.Takes take s [] s' := by
  have keyless : ∀ {found}, grammar.key [] ≠ .ok found := nofun
  rw [takeArguments]
  constructor
  · intro h
    cases h
    exact .done s
  · intro takes
    cases takes with
    | done => rfl
    | last key => exact absurd key keyless
    | more key => exact absurd key keyless

/-- Arguments are taken in the conventional way, if there is fuel for all tokens. -/
theorem takeArguments_iff
    (advances : ∀ s path ts s' rest, take s path ts = .ok (s', rest) → rest <:+ ts) {fuel : Nat}
    {s s' : σ} {ts : List Tree} (enough : ts.length ≤ fuel) :
    takeArguments take fuel s ts = .ok s' ↔ grammar.Takes take s ts s' := by
  induction fuel generalizing s ts with
  | zero =>
    obtain rfl := List.length_eq_zero_iff.mp (Nat.le_zero.mp enough)
    exact takeArguments_nil
  | succ fuel ih =>
    cases ts with
    | nil => exact takeArguments_nil
    | cons t ts =>
      rw [takeArguments, bind_eq_ok_iff]
      · constructor
        · rintro ⟨⟨path, rest⟩, read, h⟩
          have key : grammar.key (t :: ts) = _ := Grammar.readable_eq_ok_iff.mp read
          obtain ⟨_, taken, h⟩ := bind_eq_ok_iff.mp h
          split at h
          · cases h
            exact .last key taken
          · have shorter := length_lt_of_taken advances key taken
            exact .more key taken rfl ((ih (by omega)).mp h)
          · cases h
        · intro takes
          cases takes with
          | last key taken =>
            exact ⟨_, Grammar.readable_eq_ok_iff.mpr key, bind_eq_ok_iff.mpr ⟨_, taken, rfl⟩⟩
          | more key taken separated further =>
            obtain rfl := isComma_iff.mp separated
            have shorter := length_lt_of_taken advances key taken
            have more := (ih (by omega)).mpr further
            exact ⟨_, Grammar.readable_eq_ok_iff.mpr key, bind_eq_ok_iff.mpr ⟨_, taken, more⟩⟩
      · exact nofun

end Arguments

/-- **The grammar by which the program is run is conventional.** -/
theorem grammar_conventional : grammar.Conventional where
  value_suffix {ts rest} h := by
    have read : afterEquals ts = .ok rest := told_eq_ok_iff.mp h
    unfold afterEquals at read
    split at read
    · cases read
      exact List.suffix_cons _ _
    · cases read
  text_suffix {ts rest text} h := by
    have read : readText ts = .ok (text, rest) := told_eq_ok_iff.mp h
    unfold readText at read
    split at read
    · cases read
      exact List.suffix_cons _ _
    · exact absurd read missing_ne_ok
  path_suffix h := afterPath_suffix (pathUpTo_eq_ok_iff.mp h).1
  arguments_iff {σ a take s s'} advances := by
    cases form : a.form with
    | list ts =>
      simp only [grammar, form, AttributeForm.list.injEq, exists_eq_left']
      exact takeArguments_iff advances (Nat.le_refl _)
    | bare | value => simp [grammar, form]

end ArrayBridge.Written
