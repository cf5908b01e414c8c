import ArrayBridge.Bridge.Boundary

/-!
# The check of an array, and what it has to do with reading it

An array is read in two ways. The check reads it strictly and stops at the first element that does
not unwrap; deriving a native list reads it leniently and passes such elements over. Here is what
each finds, and that the two agree: up to the first element that does not unwrap both find the same
values, and without such an element the whole list.

**What a strict reading finds** is said without reading: that the elements unwrap, one by one, to
some values (`World.Unwraps`), or which is the first that does not (`World.FailsAt`).
-/

namespace ArrayBridge

namespace World

variable {T : ElementType} {w : World}

/-- A list unwraps as a whole, element by element to the values. -/
def Unwraps (w : World) (T : ElementType) (items : List Variant) (values : List T.Carrier) : Prop :=
  items.map (w.decode T) = values.map .ok

/-- The first element of a list that does not unwrap stands at `index`, and `reason` is why. -/
structure FailsAt (w : World) (T : ElementType) (items : List Variant) (index : Nat)
    (reason : ConversionError) : Prop where
  before : ∃ values, w.Unwraps T (items.take index) values
  here : ∃ v, items[index]? = some v ∧ w.decode T v = .error reason

/-! ## Reading strictly -/

theorem unwraps_cons {v : Variant} {rest : List Variant} {values : List T.Carrier} :
    w.Unwraps T (v :: rest) values ↔
      ∃ x others, values = x :: others ∧ w.decode T v = .ok x ∧ w.Unwraps T rest others := by
  constructor
  · intro whole
    cases values with
    | nil => cases whole
    | cons x others =>
      obtain ⟨first, later⟩ := List.cons.inj whole
      exact ⟨x, others, rfl, first, later⟩
  · rintro ⟨x, others, rfl, first, later⟩
    exact List.cons_eq_cons.mpr ⟨first, later⟩

theorem Unwraps.length {items : List Variant} {values : List T.Carrier}
    (whole : w.Unwraps T items values) : values.length = items.length := by
  have same := congrArg List.length whole
  rw [List.length_map, List.length_map] at same
  exact same.symm

/-- A list unwraps as a whole if each element does. -/
theorem exists_unwraps_of_forall {items : List Variant}
    (each : ∀ v ∈ items, ∃ x, w.decode T v = .ok x) : ∃ values, w.Unwraps T items values := by
  induction items with
  | nil => exact ⟨[], rfl⟩
  | cons v rest ih =>
    obtain ⟨⟨x, first⟩, others⟩ := List.forall_mem_cons.mp each
    obtain ⟨values, later⟩ := ih others
    exact ⟨x :: values, unwraps_cons.mpr ⟨x, values, rfl, first, later⟩⟩

/-- No element fails where there is none. -/
theorem not_failsAt_nil {index : Nat} {reason : ConversionError} :
    ¬ w.FailsAt T [] index reason := by
  rintro ⟨_, v, there, _⟩
  cases there

/-- Where the first element fails, no later one is the first to. -/
theorem failsAt_of_error {v : Variant} {rest : List Variant} {index : Nat}
    {first reason : ConversionError} (fails : w.decode T v = .error first) :
    w.FailsAt T (v :: rest) index reason ↔ index = 0 ∧ reason = first := by
  constructor
  · rintro ⟨⟨values, before⟩, u, there, here⟩
    cases index with
    | zero =>
      obtain rfl : v = u := Option.some.inj there
      exact ⟨rfl, Except.error.inj (here.symm.trans fails)⟩
    | succ n =>
      obtain ⟨x, _, _, unwraps, _⟩ := unwraps_cons.mp before
      rw [fails] at unwraps
      cases unwraps
  · rintro ⟨rfl, rfl⟩
    exact ⟨⟨[], rfl⟩, v, rfl, fails⟩

/-- Where the first element unwraps, the first that does not is one of the others. -/
theorem failsAt_of_ok {v : Variant} {rest : List Variant} {index : Nat} {reason : ConversionError}
    {x : T.Carrier} (unwraps : w.decode T v = .ok x) :
    w.FailsAt T (v :: rest) index reason ↔ ∃ n, index = n + 1 ∧ w.FailsAt T rest n reason := by
  constructor
  · rintro ⟨⟨values, before⟩, u, there, here⟩
    cases index with
    | zero =>
      obtain rfl : v = u := Option.some.inj there
      rw [unwraps] at here
      cases here
    | succ n =>
      obtain ⟨_, others, _, _, later⟩ := unwraps_cons.mp before
      exact ⟨n, rfl, ⟨others, later⟩, u, there, here⟩
  · rintro ⟨n, rfl, ⟨others, later⟩, there⟩
    exact ⟨⟨x :: others, unwraps_cons.mpr ⟨x, others, rfl, unwraps, later⟩⟩, there⟩

/-- A reading goes on behind an element that unwraps, and stops at one that does not. -/
theorem decodeEach_go_of_ok {v : Variant} {x : T.Carrier} (unwraps : w.decode T v = .ok x)
    (start : Nat) (rest : List Variant) :
    decodeEach.go w T start (v :: rest) =
      (decodeEach.go w T (start + 1) rest).map (x :: ·) := by
  rw [decodeEach.go, unwraps]

theorem decodeEach_go_of_error {v : Variant} {reason : ConversionError}
    (fails : w.decode T v = .error reason) (start : Nat) (rest : List Variant) :
    decodeEach.go w T start (v :: rest) = .error (start, reason) := by
  rw [decodeEach.go, fails]

/-- **A strict reading succeeds** on the lists that unwrap as a whole. -/
theorem decodeEach_go_eq_ok_iff {items : List Variant} {start : Nat} {values : List T.Carrier} :
    decodeEach.go w T start items = .ok values ↔ w.Unwraps T items values := by
  induction items generalizing start values with
  | nil =>
    constructor
    · intro read
      cases read
      rfl
    · intro whole
      cases values with
      | nil => rfl
      | cons => cases whole
  | cons v rest ih =>
    rw [unwraps_cons]
    cases first : w.decode T v with
    | error e =>
      rw [decodeEach_go_of_error first]
      constructor
      · intro read
        cases read
      · rintro ⟨_, _, _, unwraps, _⟩
        cases unwraps
    | ok x =>
      rw [decodeEach_go_of_ok first]
      constructor
      · intro read
        cases later : decodeEach.go w T (start + 1) rest with
        | error e =>
          rw [later] at read
          cases read
        | ok others =>
          rw [later] at read
          cases read
          exact ⟨x, others, rfl, rfl, ih.mp later⟩
      · rintro ⟨_, others, rfl, same, later⟩
        cases same
        rw [ih.mpr later]
        rfl

/-- **A strict reading fails** at the first element that does not unwrap. -/
theorem decodeEach_go_eq_error_iff {items : List Variant} {start index : Nat}
    {reason : ConversionError} :
    decodeEach.go w T start items = .error (index, reason) ↔
      ∃ n, index = start + n ∧ w.FailsAt T items n reason := by
  induction items generalizing start with
  | nil =>
    constructor
    · intro read
      cases read
    · rintro ⟨_, _, fails⟩
      exact absurd fails not_failsAt_nil
  | cons v rest ih =>
    cases first : w.decode T v with
    | error e =>
      rw [decodeEach_go_of_error first]
      simp only [failsAt_of_error first]
      constructor
      · intro read
        cases read
        exact ⟨0, rfl, rfl, rfl⟩
      · rintro ⟨_, rfl, rfl, rfl⟩
        rfl
    | ok x =>
      have step : (decodeEach.go w T (start + 1) rest).map (x :: ·) = .error (index, reason) ↔
          decodeEach.go w T (start + 1) rest = .error (index, reason) := by
        cases decodeEach.go w T (start + 1) rest with
        | error e => exact Iff.rfl
        | ok others => constructor <;> intro read <;> cases read
      rw [decodeEach_go_of_ok first, step, ih]
      simp only [failsAt_of_ok first]
      constructor
      · rintro ⟨n, rfl, fails⟩
        exact ⟨n + 1, Nat.add_right_comm start 1 n, n, rfl, fails⟩
      · rintro ⟨_, rfl, n, rfl, fails⟩
        exact ⟨n, (Nat.add_right_comm start 1 n).symm, fails⟩

theorem decodeEach_eq_error_iff {items : List Variant} {index : Nat} {reason : ConversionError} :
    w.decodeEach T items = .error (index, reason) ↔ w.FailsAt T items index reason := by
  refine decodeEach_go_eq_error_iff.trans ⟨?_, fun fails => ?_⟩
  · rintro ⟨n, rfl, fails⟩
    rwa [Nat.zero_add]
  · exact ⟨index, (Nat.zero_add index).symm, fails⟩

/-! ## Reading leniently -/

/-- Nothing is passed over in a list that unwraps as a whole. -/
theorem Unwraps.decodeAll {items : List Variant} {values : List T.Carrier}
    (whole : w.Unwraps T items values) : w.decodeAll T items = values := by
  induction items generalizing values with
  | nil =>
    cases values with
    | nil => rfl
    | cons => cases whole
  | cons v rest ih =>
    obtain ⟨x, others, rfl, first, later⟩ := unwraps_cons.mp whole
    have unwraps : w.decode? T v = some x := congrArg Except.toOption first
    rw [World.decodeAll, List.filterMap_cons, unwraps]
    exact congrArg (x :: ·) (ih later)

/-- **A lenient reading is as long as the list** only if nothing is passed over. -/
theorem length_decodeAll_eq_iff {items : List Variant} :
    (w.decodeAll T items).length = items.length ↔ ∃ values, w.Unwraps T items values := by
  constructor
  · intro length
    have each := List.filterMap_length_eq_length.mp length
    have every : ∀ v ∈ items, ∃ x, w.decode T v = .ok x := by
      intro v mem
      have unwraps : ((w.decode T v).toOption).isSome = true := each v mem
      cases read : w.decode T v with
      | ok x => exact ⟨x, rfl⟩
      | error e =>
        rw [read] at unwraps
        cases unwraps
    exact exists_unwraps_of_forall every
  · rintro ⟨values, whole⟩
    rw [whole.decodeAll, whole.length]

/-- A list in which an element fails is read leniently to the values before that, and to what is
found behind it. -/
theorem FailsAt.decodeAll {items : List Variant} {index : Nat} {reason : ConversionError}
    (fails : w.FailsAt T items index reason) :
    ∃ values, w.Unwraps T (items.take index) values ∧ values.length = index ∧
      w.decodeAll T items = values ++ w.decodeAll T (items.drop (index + 1)) := by
  obtain ⟨⟨values, before⟩, v, there, here⟩ := fails
  obtain ⟨inside, same⟩ := List.getElem?_eq_some_iff.mp there
  have passed : w.decode? T v = none := congrArg Except.toOption here
  refine ⟨values, before, ?_, ?_⟩
  · rw [before.length, List.length_take, Nat.min_eq_left (Nat.le_of_lt inside)]
  · calc w.decodeAll T items
      _ = w.decodeAll T (items.take index ++ v :: items.drop (index + 1)) := by
          rw [← same, ← List.drop_eq_getElem_cons inside, List.take_append_drop]
      _ = w.decodeAll T (items.take index) ++ w.decodeAll T (v :: items.drop (index + 1)) :=
          List.filterMap_append
      _ = values ++ w.decodeAll T (items.drop (index + 1)) := by
          rw [before.decodeAll, World.decodeAll, World.decodeAll, List.filterMap_cons, passed]

/-- Such a list is read leniently to fewer values than it has elements. -/
theorem FailsAt.length_decodeAll_lt {items : List Variant} {index : Nat} {reason : ConversionError}
    (fails : w.FailsAt T items index reason) : (w.decodeAll T items).length < items.length := by
  obtain ⟨v, there, _⟩ := fails.here
  obtain ⟨inside, _⟩ := List.getElem?_eq_some_iff.mp there
  obtain ⟨values, _, length, split⟩ := fails.decodeAll
  have behind : (w.decodeAll T (items.drop (index + 1))).length ≤ (items.drop (index + 1)).length :=
    List.length_filterMap_le _ _
  rw [split, List.length_append, length]
  rw [List.length_drop] at behind
  omega

/-! ## The check -/

/-- The container carries a mark that agrees with that of the element type. -/
def MarkedFor (w : World) (T : ElementType) (a : ArrayId) : Prop :=
  ∃ tag, (w.container a).tag = some tag ∧ tag.same T.tag = true

/-- **What the check has to answer**: the first of its three questions that is answered with no. -/
inductive Verdict (w : World) (T : ElementType) (candidate : ArrayId) :
    Except BridgeError Unit → Prop where
  | untyped (none : (w.container candidate).tag = none) :
    Verdict w T candidate (.error (.untypedInput T.tag))
  | mismatch (actual : TypeTag) (carries : (w.container candidate).tag = some actual)
    (other : actual.same T.tag = false) :
    Verdict w T candidate (.error (.typeTagMismatch T.tag actual))
  | failure (marked : w.MarkedFor T candidate) (index : Nat) (source : ConversionError)
    (fails : w.FailsAt T (w.container candidate).items index source) :
    Verdict w T candidate (.error (.elementConversionFailure index T.name source))
  | passed (marked : w.MarkedFor T candidate) (values : List T.Carrier)
    (whole : w.Unwraps T (w.container candidate).items values) :
    Verdict w T candidate (.ok ())

variable {candidate : ArrayId}

/-- The check of an array with the right mark is a strict reading. -/
theorem MarkedFor.validate (marked : w.MarkedFor T candidate) :
    w.validate T candidate =
      match w.decodeEach T (w.container candidate).items with
      | .ok _ => .ok ()
      | .error (index, source) => .error (.elementConversionFailure index T.name source) := by
  obtain ⟨tag, carries, same⟩ := marked
  simp only [World.validate, carries]
  exact if_pos same

/-- **The check answers what it has to.** -/
theorem verdict_validate (w : World) (T : ElementType) (candidate : ArrayId) :
    w.Verdict T candidate (w.validate T candidate) := by
  cases tag : (w.container candidate).tag with
  | none =>
    have answer : w.validate T candidate = .error (.untypedInput T.tag) := by
      simp only [validate, tag]
    exact answer ▸ .untyped tag
  | some actual =>
    cases same : actual.same T.tag with
    | false =>
      have answer : w.validate T candidate = .error (.typeTagMismatch T.tag actual) := by
        simp only [validate, tag, same, Bool.false_eq_true, if_false]
      exact answer ▸ .mismatch actual tag same
    | true =>
      have marked : w.MarkedFor T candidate := ⟨actual, tag, same⟩
      rw [marked.validate]
      cases read : w.decodeEach T (w.container candidate).items with
      | ok values => exact .passed marked values (decodeEach_go_eq_ok_iff.mp read)
      | error failure => exact .failure marked _ _ (decodeEach_eq_error_iff.mp read)

/-- There is nothing else that it could have to answer. -/
theorem Verdict.eq {answer : Except BridgeError Unit} (verdict : w.Verdict T candidate answer) :
    w.validate T candidate = answer := by
  cases verdict with
  | untyped none => simp only [World.validate, none]
  | mismatch actual carries other =>
    simp only [World.validate, carries, other, Bool.false_eq_true, if_false]
  | failure marked index source fails =>
    rw [marked.validate, decodeEach_eq_error_iff.mpr fails]
  | passed marked values whole =>
    have read : w.decodeEach T (w.container candidate).items = .ok values :=
      decodeEach_go_eq_ok_iff.mpr whole
    rw [marked.validate, read]

theorem validate_eq_iff {answer : Except BridgeError Unit} :
    w.validate T candidate = answer ↔ w.Verdict T candidate answer :=
  ⟨fun same => same ▸ w.verdict_validate T candidate, Verdict.eq⟩

/-- The check passes exactly if the mark is right and no element fails. -/
theorem validate_eq_ok_iff :
    w.validate T candidate = .ok () ↔
      w.MarkedFor T candidate ∧ ∃ values, w.Unwraps T (w.container candidate).items values := by
  rw [validate_eq_iff]
  constructor
  · intro verdict
    cases verdict with
    | passed marked values whole => exact ⟨marked, values, whole⟩
  · rintro ⟨marked, values, whole⟩
    exact .passed marked values whole

theorem validate_eq_failure_iff {index : Nat} {expected : String} {source : ConversionError} :
    w.validate T candidate = .error (.elementConversionFailure index expected source) ↔
      w.MarkedFor T candidate ∧ w.FailsAt T (w.container candidate).items index source ∧
        expected = T.name := by
  rw [validate_eq_iff]
  constructor
  · intro verdict
    cases verdict with
    | failure marked _ _ fails => exact ⟨marked, fails, rfl⟩
  · rintro ⟨marked, fails, rfl⟩
    exact .failure marked index source fails

/-- A list in which no element fails unwraps as a whole. -/
theorem exists_unwraps_iff {items : List Variant} :
    (∃ values, w.Unwraps T items values) ↔ ∀ index reason, ¬ w.FailsAt T items index reason := by
  constructor
  · intro whole index reason fails
    exact Nat.ne_of_lt fails.length_decodeAll_lt (length_decodeAll_eq_iff.mpr whole)
  · intro none
    cases read : w.decodeEach T items with
    | ok values => exact ⟨values, decodeEach_go_eq_ok_iff.mp read⟩
    | error failure => exact absurd (decodeEach_eq_error_iff.mp read) (none _ _)

end World

/-- **Strict and lenient reading agree**, in any world, for any element type and array. The check
answers

- that the array is untyped, exactly if it carries no mark;
- that it is marked for something else, exactly if it carries a mark that does not agree;
- that the element at an index does not unwrap and why, exactly if the mark agrees, that element
  does not unwrap for that reason and every element before it does;
- that all is well, exactly if none of these is so.

And if the mark agrees, the check passes exactly if the lenient reading has as many values as the
array has elements, which are then the elements unwrapped, one by one. If it fails at an index, the
lenient reading starts with the elements before that, unwrapped, and is shorter than the array. -/
theorem validation_agrees (w : World) (T : ElementType) (candidate : ArrayId) :
    let c := w.container candidate
    let lenient := w.decodeAll T c.items
    (∀ expected, w.validate T candidate = .error (.untypedInput expected) ↔
      c.tag = none ∧ expected = T.tag) ∧
    (∀ expected actual, w.validate T candidate = .error (.typeTagMismatch expected actual) ↔
      c.tag = some actual ∧ actual.same T.tag = false ∧ expected = T.tag) ∧
    (∀ index expected source,
      w.validate T candidate = .error (.elementConversionFailure index expected source) ↔
        w.MarkedFor T candidate ∧ w.FailsAt T c.items index source ∧ expected = T.name) ∧
    (w.validate T candidate = .ok () ↔
      w.MarkedFor T candidate ∧ ∀ index source, ¬ w.FailsAt T c.items index source) ∧
    (w.MarkedFor T candidate →
      (w.validate T candidate = .ok () ↔ lenient.length = c.items.length) ∧
      (w.validate T candidate = .ok () → w.Unwraps T c.items lenient) ∧
      ∀ index expected source,
        w.validate T candidate = .error (.elementConversionFailure index expected source) →
          w.Unwraps T (c.items.take index) (lenient.take index) ∧
            lenient.length < c.items.length) := by
  intro c lenient
  refine ⟨fun expected => ?_, fun expected actual => ?_, fun index expected source => ?_, ?_,
    fun marked => ⟨?_, ?_, ?_⟩⟩
  · rw [World.validate_eq_iff]
    constructor
    · intro verdict
      cases verdict with
      | untyped none => exact ⟨none, rfl⟩
    · rintro ⟨none, rfl⟩
      exact .untyped none
  · rw [World.validate_eq_iff]
    constructor
    · intro verdict
      cases verdict with
      | mismatch _ carries other => exact ⟨carries, other, rfl⟩
    · rintro ⟨carries, other, rfl⟩
      exact .mismatch actual carries other
  · exact World.validate_eq_failure_iff
  · rw [World.validate_eq_ok_iff, World.exists_unwraps_iff]
  · rw [World.validate_eq_ok_iff, World.length_decodeAll_eq_iff]
    exact and_iff_right marked
  · intro passed
    obtain ⟨_, values, whole⟩ := World.validate_eq_ok_iff.mp passed
    have read : lenient = values := whole.decodeAll
    exact read ▸ whole
  · intro index expected source failed
    obtain ⟨_, fails, _⟩ := World.validate_eq_failure_iff.mp failed
    obtain ⟨values, before, length, split⟩ := fails.decodeAll
    refine ⟨?_, fails.length_decodeAll_lt⟩
    have first : lenient.take index = values := by
      show (w.decodeAll T c.items).take index = values
      rw [split, ← length, List.take_left]
    exact first ▸ before

/-- An array marked for integers, with one among them that is no byte. -/
def outOfRange : World :=
  { World.empty with
    containers := #[⟨some (ElementType.int .u8).tag, [.int 7, .int 300, .int 9], 0, false⟩] }

/-- The check stops at the number that is no byte; the lenient reading passes it over. -/
theorem validation_agrees_outOfRange :
    outOfRange.MarkedFor (.int .u8) ⟨0⟩ ∧
      outOfRange.validate (.int .u8) ⟨0⟩ =
        .error (.elementConversionFailure 1 "int" (.integerOverflow 300 "u8")) ∧
      (outOfRange.decodeAll (.int .u8) (outOfRange.container ⟨0⟩).items).length < 3 := by
  have marked : outOfRange.MarkedFor (.int .u8) ⟨0⟩ := ⟨_, rfl, rfl⟩
  obtain ⟨_, _, failure, _, lenient⟩ := validation_agrees outOfRange (.int .u8) ⟨0⟩
  have fails : outOfRange.FailsAt (.int .u8) (outOfRange.container ⟨0⟩).items 1
      (.integerOverflow 300 "u8") := ⟨⟨[⟨7, by decide⟩], by rfl⟩, .int 300, rfl, by rfl⟩
  have failed := (failure 1 "int" (.integerOverflow 300 "u8")).mpr ⟨marked, fails, rfl⟩
  exact ⟨marked, failed, ((lenient marked).2.2 _ _ _ failed).2⟩

end ArrayBridge
