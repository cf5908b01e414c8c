import ArrayBridge.Proofs.Bridge.Account
import ArrayBridge.Proofs.Run.Script

/-!
# References over a run

The account over every run: what is counted for an object is its first reference, what was taken and
not given back by hand, and what bridges hold. And what a bridge holds are the counted objects in
its container at its last look.

**Care.** Whoever gives back more references than he has, or frees an object by hand, ends objects
that bridges hold on to. `Careful` says that nobody did.
-/

namespace ArrayBridge

namespace Event

/-- The worlds in which counts are highest: after the action, and in the middle of its looks. -/
def crests (e : Event) : List World := e.after :: (e.world.looks e.action).map World.Look.crest

/-- A reference is taken by hand. -/
def takes (o : ObjectId) (e : Event) : Bool :=
  match e.action with
  | .reference p => p == o
  | _ => false

/-- A reference is given back by hand. -/
def gives (o : ObjectId) (e : Event) : Bool :=
  match e.action with
  | .unreference p => p == o
  | _ => false

/-- The object is freed by hand. -/
def frees (o : ObjectId) (e : Event) : Bool :=
  match e.action with
  | .free h id => h.get e.world id == some o
  | _ => false

end Event

theorem below_of_crests {past : List Event}
    (h : (past.all fun e => e.crests.all World.isBelow) = true) :
    ∀ e ∈ past, ∀ c ∈ e.crests, c.Below := fun e he c hc =>
  World.below_of_isBelow (List.all_eq_true.mp (List.all_eq_true.mp h e he) c hc)

/-- How many references on the object were taken by hand. -/
def taken (past : List Event) (o : ObjectId) : Nat := past.countP (Event.takes o)

/-- How many references on the object were given back by hand. -/
def given (past : List Event) (o : ObjectId) : Nat := past.countP (Event.gives o)

/-- At no time did anyone give back more references than he had taken, the first one included, and
nobody freed the object by hand. -/
def Careful (past : List Event) (o : ObjectId) : Prop :=
  (∀ e ∈ past, e.frees o = false) ∧
    ∀ earlier, earlier <:+ past → given earlier o ≤ taken earlier o + 1

/-- All looks of a run, the latest first. -/
def looksOf (past : List Event) : List World.Look :=
  past.flatMap fun e => e.world.looks e.action

/-- The last look of the bridge in a place. -/
def lastLook? (past : List Event) (slot : Nat) : Option World.Look :=
  (looksOf past).find? fun look => look.slot == slot

/-! ## Over a run -/

theorem Careful.tail {e : Event} {past : List Event} {o : ObjectId} (h : Careful (e :: past) o) :
    Careful past o :=
  ⟨fun e' he => h.1 e' (List.mem_cons_of_mem e he),
    fun earlier he => h.2 earlier (he.trans (List.suffix_cons e past))⟩

theorem Careful.now {past : List Event} {o : ObjectId} (h : Careful past o) :
    given past o ≤ taken past o + 1 := h.2 past (List.suffix_refl past)

/-- The tally after a reference was taken by hand. -/
theorem taken_reference (w : World) (o : ObjectId) (past : List Event) :
    taken (⟨w, .reference o⟩ :: past) = fun p => taken past p + if p = o then 1 else 0 := by
  funext p
  rw [taken, List.countP_cons]
  by_cases h : p = o
  · subst h
    simp [Event.takes, taken]
  · simp [Event.takes, taken, h, Ne.symm h]

/-- The tally after a reference was given back by hand. -/
theorem given_unreference (w : World) (o : ObjectId) (past : List Event) :
    given (⟨w, .unreference o⟩ :: past) = fun p => given past p + if p = o then 1 else 0 := by
  funext p
  rw [given, List.countP_cons]
  by_cases h : p = o
  · subst h
    simp [Event.gives, given]
  · simp [Event.gives, given, h, Ne.symm h]

namespace World

variable {w : World}

/-- What was never there was neither taken nor given back. -/
def Untouched (past : List Event) (w : World) : Prop :=
  ∀ o, w.objects.size ≤ o.slot → taken past o = 0 ∧ given past o = 0

theorem Untouched.step {past : List Event} (h : Untouched past w) (s : w.Sound) {a : Action}
    (allowed : a.Allowed w) : Untouched (⟨w, a⟩ :: past) (w.step a) := by
  intro o ho
  obtain ⟨ht, hg⟩ := h o (Nat.le_trans (evolves_step s allowed).objects ho)
  have old : ∀ p, w.Knows (.object p) → o ≠ p := by
    rintro p hp rfl
    exact Nat.lt_irrefl _ (Nat.lt_of_lt_of_le hp
      (Nat.le_trans (evolves_step s allowed).objects ho))
  cases a with
  | reference p =>
    rw [taken_reference]
    refine ⟨?_, hg⟩
    show taken past o + (if o = p then 1 else 0) = 0
    rw [if_neg (old p allowed), ht]
  | unreference p =>
    rw [given_unreference]
    refine ⟨ht, ?_⟩
    show given past o + (if o = p then 1 else 0) = 0
    rw [if_neg (old p allowed), hg]
  | _ => exact ⟨ht, hg⟩

/-- **An action keeps the account.** -/
theorem Balanced.step {past : List Event} (s : w.Sound) {a : Action} (allowed : a.Allowed w)
    (new : Untouched past w) (below : ∀ c ∈ Event.crests ⟨w, a⟩, c.Below)
    (h : w.Balanced [] (taken past) (given past) (Careful past)) :
    (w.step a).Balanced [] (taken (⟨w, a⟩ :: past)) (given (⟨w, a⟩ :: past))
      (Careful (⟨w, a⟩ :: past)) := by
  have careful : ∀ o, Careful (⟨w, a⟩ :: past) o →
      given (⟨w, a⟩ :: past) o ≤ taken (⟨w, a⟩ :: past) o + 1 := fun o => Careful.now
  have before := h.fewer fun o (hk : Careful (⟨w, a⟩ :: past) o) => hk.tail
  have after : (w.step a).Below := below _ (.head _)
  have inside : ∀ look ∈ w.looks a, look.crest.Below :=
    fun look hl => below _ (.tail _ (List.mem_map.mpr ⟨look, hl, rfl⟩))
  by_cases course : a.isCourse = true
  · have same : taken (⟨w, a⟩ :: past) = taken past ∧ given (⟨w, a⟩ :: past) = given past := by
      cases a with
      | reference o | unreference o => cases course
      | _ => exact ⟨rfl, rfl⟩
    rw [same.1, same.2] at careful ⊢
    exact (course_step s course allowed).balanced careful inside before
  cases a with
  | allocate heap cls payload =>
    obtain ⟨id, n, he⟩ := allocate_eq heap w cls payload
    show World.Balanced (heap.allocate w cls payload).2.1 [] (taken past) (given past) _
    rw [he]
    refine (before.addObject (fun hc => ?_) fun o ho => ?_).same (fun _ => rfl) fun _ => rfl
    · have counts : cls.refcounted = true := (Bool.and_eq_true_iff.mp hc).1
      show (if cls.refcounted then 1 else 0) = 1
      rw [counts]
      rfl
    · exact ⟨(new o ho).1, (new o ho).2, s.held_of_ge ho⟩
  | free heap id =>
    show World.Balanced (heap.free w id).2.1 [] (taken past) (given past) _
    unfold Heap.free
    split
    · rename_i o ho
      apply before.free careful
      intro hk
      have spared := hk.1 _ (.head _)
      simp [Event.frees, ho] at spared
    · exact before
  | reference o =>
    rw [taken_reference]
    exact before.reference o after
  | unreference o =>
    rw [given_unreference] at careful ⊢
    exact before.unreference o careful
  | setValue o n | lendExclusively o | lendToReader o | returnExclusive o | returnFromReader o =>
    exact before.updateObject o (fun _ => rfl) (fun _ => rfl) fun _ => rfl
  | newBridge T values policy =>
    exact (before.openBridge T values policy).look careful inside
  | dropBridge r => exact before.dropBridge careful r
  | keep handles => exact before.same (fun _ => rfl) fun _ => rfl
  | letGo handles =>
    have fewer : World.Balanced { w with outside := handles.foldl List.erase w.outside } []
        (taken past) (given past) (Careful (⟨w, .letGo handles⟩ :: past)) :=
      before.same (fun _ => rfl) fun _ => rfl
    exact fewer.letGo careful handles
  | _ => exact absurd rfl course

/-! ### What bridges hold -/

/-- Every bridge has looked, and holds what it saw last. -/
structure Recalls (past : List Event) (w : World) : Prop where
  recalled : ∀ slot, Recalled (looksOf past) w slot
  looked : ∀ slot, slot < w.bridges.size → (lastLook? past slot).isSome

/-- A bridge that has looked has still looked after more looks. -/
theorem looked_append {looks : List Look} {past : List Look} {slot : Nat}
    (h : (past.find? fun look => look.slot == slot).isSome) :
    ((looks ++ past).find? fun look => look.slot == slot).isSome := by
  rw [List.find?_append, Option.isSome_or, h, Bool.or_true]

theorem Recalls.step {past : List Event} (s : w.Sound) {a : Action} (allowed : a.Allowed w)
    (h : w.Recalls past) : (w.step a).Recalls (⟨w, a⟩ :: past) := by
  have all : looksOf (⟨w, a⟩ :: past) = w.looks a ++ looksOf past := List.flatMap_cons
  have old : ∀ slot, slot < w.bridges.size → (lastLook? (⟨w, a⟩ :: past) slot).isSome := by
    intro slot hs
    rw [lastLook?, all]
    exact looked_append (h.looked slot hs)
  by_cases course : a.isCourse = true
  · have way := course_step s course allowed
    refine ⟨?_, fun slot hs => old slot (way.tables.2.1 ▸ hs)⟩
    rw [all]
    exact way.recalled h.recalled
  by_cases new : ∃ T values policy, a = .newBridge T values policy
  · obtain ⟨T, values, policy, rfl⟩ := new
    let opened := w.openBridge T values policy
    have here := bridge?_openBridge w T values policy
    have slot : opened.2.slot = w.bridges.size := by simp [opened]
    have others : ∀ s, s ≠ opened.2.slot → Recalled (looksOf past) opened.1 s := fun s hs =>
      (h.recalled s).entry (.inr (anyBridge?_openBridge_of_ne w T values policy (slot ▸ hs)))
    have grown : (opened.1.retainBacking opened.2).bridges.size = w.bridges.size + 1 :=
      size_newBridge w T values policy
    constructor
    · intro s
      rw [all]
      exact recalled_look here others s
    · intro s hs
      rcases Nat.lt_or_ge s w.bridges.size with hl | hg
      · exact old s hl
      · have hs : s < w.bridges.size + 1 := grown ▸ hs
        have last : s = opened.2.slot := by omega
        have first : w.looks (.newBridge T values policy) = [⟨opened.2.slot, opened.1⟩] := by
          show opened.1.lookAt opened.2 = _
          rw [lookAt, here]
          rfl
        rw [lastLook?, all, first, last]
        simp
  · obtain ⟨size, entry⟩ := entry_step (w := w) course fun T values policy he =>
      new ⟨T, values, policy, he⟩
    have none : w.looks a = [] := by
      cases a with
      | newBridge T values policy => exact absurd ⟨T, values, policy, rfl⟩ new
      | allocate | free | reference | unreference | setValue | lendExclusively | lendToReader
      | returnExclusive | returnFromReader | dropBridge | keep | letGo => rfl
      | _ => exact absurd rfl course
    refine ⟨?_, fun slot hs => old slot (size ▸ hs)⟩
    intro slot
    rw [all, none, List.nil_append]
    exact (h.recalled slot).entry (entry slot)

end World

theorem Run.untouched {past : List Event} {w : World} (run : Run past w) :
    World.Untouched past w := by
  induction run with
  | start => exact fun o _ => ⟨rfl, rfl⟩
  | step run a allowed ih => exact ih.step run.sound allowed

/-- **The account is kept over every run.** -/
theorem Run.balanced {past : List Event} {w : World} (run : Run past w)
    (below : ∀ e ∈ past, ∀ c ∈ e.crests, c.Below) :
    w.Balanced [] (taken past) (given past) (Careful past) := by
  induction run with
  | start =>
    have object : ∀ o, World.empty.object o = default := fun o => World.object_of_ge (Nat.zero_le _)
    refine ⟨?_, ?_, fun o _ _ => rfl⟩
    · intro o ho
      rw [object] at ho
      cases ho
    · intro o ho
      rw [object] at ho
      cases ho
  | step run a allowed ih =>
    have before := ih fun e he => below e (.tail _ he)
    exact before.step run.sound allowed run.untouched (below _ (.head _))

/-- **Every bridge holds what it saw last, over every run.** -/
theorem Run.recalls {past : List Event} {w : World} (run : Run past w) : w.Recalls past := by
  induction run with
  | start =>
    have none : ∀ slot, World.empty.anyBridge? slot = none := by
      intro slot
      simp [World.anyBridge?, World.empty, Array.getD]
    refine ⟨?_, fun slot hs => absurd hs (Nat.not_lt_zero _)⟩
    intro slot T b hb
    rw [none] at hb
    cases hb
  | step run a allowed ih => exact ih.step run.sound allowed

/-- **References are conserved.** In every world that a run leads to, below the most:

- the count of an object is its first reference, what was taken by hand and not given back, and what
  open bridges hold; and it is not zero;
- an open bridge holds a reference on each object that was an element of its container, alive and
  counted, when it last looked, as often as it was one;
- an object that an open bridge holds is alive, unless it was freed by hand or someone gave back
  more references on it than he had. -/
theorem references_conserved {past : List Event} {w : World} (run : Run past w)
    (below : ∀ e ∈ past, ∀ c ∈ e.crests, c.Below) :
    (∀ o, (w.object o).cls.refcounted = true → (w.object o).alive = true →
      ∃ n, w.referenceCount o = some n ∧
        n + given past o = 1 + taken past o + w.heldByBridges o ∧ 1 ≤ n) ∧
    (∀ slot T b, w.anyBridge? slot = some ⟨T, b⟩ →
      ∃ look b', lastLook? past slot = some look ∧ look.world.anyBridge? slot = some ⟨T, b'⟩ ∧
        b.retained = (World.directObjects (look.world.container b'.backing).items).filter
          fun o => (look.world.object o).counted) ∧
    ∀ slot b, w.anyBridge? slot = some b → ∀ o ∈ b.bridge.retained, Careful past o →
      (w.object o).alive = true := by
  have account := run.balanced below
  refine ⟨?_, ?_, ?_⟩
  · intro o refcounted alive
    have counted : (w.object o).counted = true := Bool.and_eq_true_iff.mpr ⟨refcounted, alive⟩
    refine ⟨(w.object o).refs, ?_, account.counts o counted, account.positive o counted⟩
    unfold World.referenceCount ObjectCell.referenceCount
    rw [if_pos counted]
  · intro slot T b hb
    exact run.recalls.recalled slot T b hb
  · intro slot b hb o ho careful
    cases alive : (w.object o).alive with
    | true => rfl
    | false =>
      -- nothing is owed to the dead, but this bridge would hold a reference
      have settled : w.heldByBridges o = 0 := account.settled o alive careful
      have place := World.getElem?_of_anyBridge? hb
      have held : o ∈ w.bridges.toList.flatMap World.retainedIn :=
        List.mem_flatMap.mpr ⟨some b, List.mem_of_getElem? place, ho⟩
      exact absurd held (List.count_eq_zero.mp settled)

/-- An object with three references: its first, that of a bridge, and one taken by hand. -/
def thrice : List Action :=
  [ .allocate .empty .refCounted ⟨none, []⟩,
    .newBridge (.handle .refCounted) [⟨⟨0⟩⟩] .keepPrevious,
    .reference ⟨0⟩ ]

theorem references_conserved_thrice :
    ∃ past w, Run past w ∧ w.referenceCount ⟨0⟩ = some 3 ∧
      3 + given past ⟨0⟩ = 1 + taken past ⟨0⟩ + w.heldByBridges ⟨0⟩ := by
  have run := Run.start.script thrice (by cbv)
  obtain ⟨account, _⟩ := references_conserved run (below_of_crests (by cbv))
  obtain ⟨n, hn, sum, _⟩ := account ⟨0⟩ (by cbv) (by cbv)
  have three : n = 3 := by
    have count : some n = some 3 := hn.symm.trans (by cbv)
    cases count
    rfl
  exact ⟨_, _, run, three ▸ hn, three ▸ sum⟩

end ArrayBridge
