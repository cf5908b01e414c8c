import ArrayBridge.Proofs.Bridge.Contents
import ArrayBridge.Proofs.Bridge.Editing
import ArrayBridge.Proofs.Run.Script
import ArrayBridge.Proofs.Run.Step
import ArrayBridge.Proofs.World.Mutation

/-!
# While a list is out

A bridge's native list is in someone's hands, because a session was opened or because a copy was
taken. He edits it, and meanwhile containers are changed through handles on them. A `Session` is
that time, step by step, in any order.

**What an edit or a change to a container takes out** is let go of at once, which may be the end of
objects and of other containers. Without that, the list on the one side and the containers and what
is kept outside on the other would go their own ways (`Session.change`).

**The two are the same in the end.** What is let go of on the way could as well be let go of all at
once after the last step (`Session.Lags`). So the order of edits among changes to containers makes
no difference.
-/

namespace ArrayBridge

/-- Whether a value leads to something that can come to an end. -/
def Variant.isHandle : Variant → Bool
  | .object _ | .array _ => true
  | _ => false

theorem World.isHandle_of_isIntact {w : World} {v : Variant} (h : w.isIntact v = true) :
    v.isHandle = true := by
  cases v with
  | object | array => rfl
  | _ => cases h

/-! ## Steps -/

/-- What is done through handles that are kept outside: a container is changed, a handle that there
is somewhere is copied, or handles are let go of. -/
inductive EngineStep where
  | mutate (a : ArrayId) (m : Mutation)
  | keep (handles : List Variant)
  | letGo (handles : List Variant)

inductive SessionStep (T : ElementType) where
  | edit (e : ListEdit T.Carrier)
  | engine (x : EngineStep)

namespace SessionStep

variable {T : ElementType}

/-- The edits among some steps, in order. -/
def editsOf (steps : List (SessionStep T)) : List (ListEdit T.Carrier) :=
  steps.filterMap fun
    | .edit e => some e
    | .engine _ => none

/-- All other steps, in order. -/
def engineOf (steps : List (SessionStep T)) : List EngineStep :=
  steps.filterMap fun
    | .edit _ => none
    | .engine x => some x

end SessionStep

/-- **A list that is out**, and the world in the meantime. Outside are the list's handles and those
that are kept by others. -/
structure Session (T : ElementType) where
  world : World
  list : List T.Carrier
  kept : List Variant

namespace Session

variable {T : ElementType}

/-- The world, with all handles outside of it. -/
def present (s : Session T) : World := { s.world with outside := s.kept ++ T.encodeAll s.list }

/-- The world in which the list is handed back. -/
def given (s : Session T) : World := { s.world with outside := s.kept }

/-- One step. What is taken out of a container is kept by whoever took it out. -/
def step (s : Session T) : SessionStep T → Session T
  | .edit e =>
    let edited := { s with list := e.apply s.list }
    { edited with world := edited.present.letGo (T.encodeAll (e.removed s.list)) }
  | .engine (.mutate a m) =>
    { s with
      world := s.present.step (m.action a)
      kept := m.handsOver (s.world.container a) ++ s.kept }
  | .engine (.keep handles) => { s with kept := handles ++ s.kept }
  | .engine (.letGo handles) =>
    let fewer := { s with kept := handles.foldl List.erase s.kept }
    { fewer with world := fewer.present.letGo handles }

def after (s : Session T) (steps : List (SessionStep T)) : Session T := steps.foldl step s

/-- There is a handle where there has to be one. -/
def Has (s : Session T) (v : Variant) : Prop := v.isHandle = true → v ∈ s.present.handles

/-- What can be done: a container is changed by someone who has a handle on it, what is brought
comes from somewhere, and whoever has an object's payload lent out keeps his handle on the
object. -/
def Possible (s : Session T) : SessionStep T → Prop
  | .edit e => ∀ x ∈ e.operand?, s.Has (T.encode x)
  | .engine (.mutate a m) =>
    (.array a ∈ s.kept ∧ s.world.isIntact (.array a) = true) ∧ ∀ v ∈ m.operand?, s.Has v
  | .engine (.keep handles) => ∀ v ∈ handles, s.Has v
  | .engine (.letGo handles) =>
    (∀ v ∈ handles, v ∈ s.kept) ∧
      ∀ o, (s.world.object o).borrow ≠ .idle → .object o ∈ handles.foldl List.erase s.kept

/-- Whether each step can be done when its turn comes. -/
def Feasible (s : Session T) : List (SessionStep T) → Prop
  | [] => True
  | x :: rest => s.Possible x ∧ (s.step x).Feasible rest

instance (s : Session T) (v : Variant) : Decidable (s.Has v) :=
  inferInstanceAs (Decidable (v.isHandle = true → v ∈ s.present.handles))

instance (s : Session T) (x : SessionStep T) : Decidable (s.Possible x) :=
  match x with
  | .edit e => inferInstanceAs (Decidable (∀ x ∈ e.operand?, s.Has (T.encode x)))
  | .engine (.mutate a m) =>
    inferInstanceAs (Decidable
      ((.array a ∈ s.kept ∧ s.world.isIntact (.array a) = true) ∧ ∀ v ∈ m.operand?, s.Has v))
  | .engine (.keep handles) => inferInstanceAs (Decidable (∀ v ∈ handles, s.Has v))
  | .engine (.letGo _) =>
    @instDecidableAnd _ _ inferInstance (decidable_of_iff _ World.keepsLent_iff.symm)

def isFeasible (s : Session T) : List (SessionStep T) → Bool
  | [] => true
  | x :: rest => decide (s.Possible x) && (s.step x).isFeasible rest

theorem feasible_of_isFeasible {s : Session T} {steps : List (SessionStep T)}
    (h : s.isFeasible steps = true) : s.Feasible steps := by
  induction steps generalizing s with
  | nil => trivial
  | cons x rest ih =>
    obtain ⟨possible, later⟩ := Bool.and_eq_true_iff.mp h
    exact ⟨of_decide_eq_true possible, ih later⟩

/-! ## What a step changes, and what it lets go of -/

end Session

/-- What a step that is no edit changes, before anything is let go of. -/
def EngineStep.change (w : World) (kept : List Variant) : EngineStep → World × List Variant
  | .mutate a m =>
    (w.updateContainer a fun _ => m.leaves w (w.container a), m.handsOver (w.container a) ++ kept)
  | .keep handles => (w, handles ++ kept)
  | .letGo handles => (w, handles.foldl List.erase kept)

def EngineStep.loses (w : World) : EngineStep → List Variant
  | .mutate a m => m.replaces (w.container a)
  | .keep _ => []
  | .letGo handles => handles

namespace Session

variable {T : ElementType} {s b : Session T} {r : BridgeRef T} {u v : Variant}

/-- A step without what is let go of. -/
def change (s : Session T) : SessionStep T → Session T
  | .edit e => { s with list := e.apply s.list }
  | .engine x =>
    let changed := x.change s.world s.kept
    { s with world := changed.1, kept := changed.2 }

def loses (s : Session T) : SessionStep T → List Variant
  | .edit e => T.encodeAll (e.removed s.list)
  | .engine x => x.loses s.world

theorem list_step (s : Session T) (x : SessionStep T) : (s.step x).list = (s.change x).list := by
  cases x with
  | edit e => rfl
  | engine x => cases x <;> rfl

theorem kept_step (s : Session T) (x : SessionStep T) : (s.step x).kept = (s.change x).kept := by
  cases x with
  | edit e => rfl
  | engine x => cases x <;> rfl

/-- Whoever looks at the world after a loss knows the same handles outside. -/
theorem present_of_letGo (s : Session T) (handles : List Variant) :
    present { s with world := s.present.letGo handles } = s.present.letGo handles := by
  have outside : (s.present.letGo handles).outside = s.kept ++ T.encodeAll s.list :=
    (World.wanes_letGo s.present handles).outside
  show { s.present.letGo handles with outside := s.kept ++ T.encodeAll s.list } = _
  rw [← outside]

theorem present_step (s : Session T) (x : SessionStep T) :
    (s.step x).present = (s.change x).present.letGo (s.loses x) := by
  cases x with
  | edit e => exact present_of_letGo { s with list := e.apply s.list } _
  | engine x =>
    cases x with
    | mutate a m =>
      let c := s.world.container a
      let changed := s.world.updateContainer a fun _ => m.leaves s.world c
      have step : s.present.step (m.action a) =
          ({ changed with outside := s.kept ++ T.encodeAll s.list }).letGo (m.replaces c) :=
        World.step_mutation s.present a m
      have outside : (s.present.step (m.action a)).outside = s.kept ++ T.encodeAll s.list := by
        rw [step]
        exact (World.wanes_letGo _ _).outside
      show { s.present.step (m.action a) with
          outside := (m.handsOver c ++ s.kept) ++ T.encodeAll s.list } =
        ({ changed with outside := (m.handsOver c ++ s.kept) ++ T.encodeAll s.list }).letGo
          (m.replaces c)
      rcases m.replaces_or_handsOver c with none | none
      · rw [none, World.letGo_nil] at step ⊢
        rw [step]
      · rw [none, List.nil_append, ← step, ← outside]
    | keep handles => exact (World.letGo_nil _).symm
    | letGo handles =>
      exact present_of_letGo { s with kept := handles.foldl List.erase s.kept } handles

/-! ## Letting go at the end -/

theorem mem_present_of_kept (mem : u ∈ s.kept) : u ∈ s.present.handles :=
  World.mem_handles_iff.mpr (.inl (List.mem_append_left _ mem))

theorem mem_present_of_list (mem : u ∈ T.encodeAll s.list) : u ∈ s.present.handles :=
  World.mem_handles_iff.mpr (.inl (List.mem_append_right _ mem))

theorem mem_encodeAll {values : List T.Carrier} :
    u ∈ T.encodeAll values ↔ ∃ x ∈ values, T.encode x = u := List.mem_map

theorem mem_or_mem_foldl_erase {handles outside : List Variant} (mem : u ∈ outside) :
    u ∈ handles.foldl List.erase outside ∨ u ∈ handles := by
  induction handles generalizing outside with
  | nil => exact .inl mem
  | cons v rest ih =>
    by_cases here : u = v
    · exact .inr (here ▸ List.mem_cons_self)
    · exact (ih ((List.mem_erase_of_ne here).mpr mem)).imp_right (List.mem_cons_of_mem _)

/-- **The second session did the same and let go of nothing**: it becomes the first, but for the
journal, if what it is late with is let go of. The bridge is guarded all the time. -/
structure Lags (r : BridgeRef T) (s b : Session T) (late : List Variant) : Prop where
  list : b.list = s.list
  kept : b.kept = s.kept
  alike : (b.present.letGo late).Alike s.present
  guarded : b.given.Guarded r.slot

namespace Lags

variable {late : List Variant} {x : SessionStep T}

theorem start (g : s.given.Guarded r.slot) : Lags r s s [] where
  list := rfl
  kept := rfl
  alike := by
    rw [World.letGo_nil]
    exact .refl _
  guarded := g

theorem borrow (h : Lags r s b late) (o : ObjectId) :
    (s.world.object o).borrow = (b.world.object o).borrow :=
  (congrArg ObjectCell.borrow (h.alike.object o)).trans ((World.wanes_letGo _ late).borrow o)

theorem cls (h : Lags r s b late) (o : ObjectId) :
    (s.world.object o).cls = (b.world.object o).cls :=
  (congrArg ObjectCell.cls (h.alike.object o)).trans ((World.wanes_letGo _ late).cls o)

/-- A container that is there is the same in both. -/
theorem container (h : Lags r s b late) {a : ArrayId}
    (intact : s.world.isIntact (.array a) = true) : s.world.container a = b.world.container a := by
  have here : s.world.container a = (b.present.letGo late).container a := h.alike.container a
  have declines : b.present.Declines (b.present.letGo late) := World.declines_perform _ _
  obtain ⟨tag, items, revision⟩ := declines.container a
  rw [← here] at tag items revision
  have kept : (s.world.container a).dropped = false := by simpa [World.isIntact] using intact
  refine Container.eq_of_fields tag items revision (kept.trans ?_)
  cases dropped : (b.world.container a).dropped with
  | false => rfl
  | true =>
    have lost := declines.dropped a dropped
    rw [← here, kept] at lost
    cases lost

/-- A step that is one change to both. -/
theorem of_patch {p : Patch} (h : Lags r s b late) (same : s.loses x = b.loses x)
    (list : (b.change x).list = (s.change x).list) (kept : (b.change x).kept = (s.change x).kept)
    (there : World.Patched p b.present (b.change x).present)
    (here : World.Patched p s.present (s.change x).present)
    (admits : World.Admits p b.present s.present (b.loses x))
    (lent : ∀ o, (b.world.object o).borrow ≠ .idle → .object o ∈ b.kept →
      .object o ∈ (b.change x).kept) : Lags r (s.step x) (b.change x) (late ++ b.loses x) where
  list := list.trans (list_step s x).symm
  kept := kept.trans (kept_step s x).symm
  alike := by
    rw [present_step, same]
    exact World.deferred h.alike there here admits
  guarded := by
    intro o fields payload field
    have objects : (b.change x).world.object o = b.world.object o := by
      cases x with
      | edit e => rfl
      | engine x => cases x <;> rfl
    have payload' : b.given.fields? o = some fields := by
      rw [← payload]
      exact congrArg (fun cell : ObjectCell => cell.payload.map Payload.fields) objects.symm
    obtain ⟨busy, held⟩ := h.guarded o fields payload' field
    refine ⟨?_, lent o busy held⟩
    intro idle
    exact busy ((congrArg ObjectCell.borrow objects).symm.trans idle)

/-- A step that changes nothing but the list and what is kept: it loses nothing that it does not let
go of, and brings nothing that is not there. -/
theorem of_keeping (h : Lags r s b late) (same : s.loses x = b.loses x)
    (list : (b.change x).list = (s.change x).list) (kept : (b.change x).kept = (s.change x).kept)
    (there : (b.change x).world = b.world) (here : (s.change x).world = s.world)
    (covers : ∀ u, u ∈ s.kept ∨ u ∈ T.encodeAll s.list →
      (u ∈ (s.change x).kept ∨ u ∈ T.encodeAll (s.change x).list) ∨ u ∈ s.loses x)
    (brought : ∀ u,
      (u ∈ (s.change x).kept ∨ u ∈ T.encodeAll (s.change x).list) ∨ u ∈ s.loses x → s.Has u)
    (lent : ∀ o, (s.world.object o).borrow ≠ .idle → .object o ∈ s.kept →
      .object o ∈ (s.change x).kept) : Lags r (s.step x) (b.change x) (late ++ b.loses x) := by
  let outside := (s.change x).kept ++ T.encodeAll (s.change x).list
  have changed : (b.change x).present = { b.world with outside } := by
    rw [present, there, list, kept]
  have changed' : (s.change x).present = { s.world with outside } := by
    rw [present, here]
  refine h.of_patch (p := .keeping outside) same list kept ?_ ?_ (.keeping ?_ ?_) ?_
  · rw [changed]
    exact World.patched_keeping b.present outside
  · rw [changed']
    exact World.patched_keeping s.present outside
  · intro u mem
    have mem : u ∈ b.kept ++ T.encodeAll b.list := mem
    rw [h.kept, h.list, List.mem_append] at mem
    rw [← same, List.mem_append]
    exact covers u mem
  · intro u among intact
    rw [← same, List.mem_append] at among
    exact brought u among (World.isHandle_of_isIntact intact)
  · intro o busy mem
    rw [← h.borrow] at busy
    rw [h.kept] at mem
    rw [kept]
    exact lent o busy mem

theorem has_of_kept (mem : u ∈ s.kept) : s.Has u := fun _ => mem_present_of_kept mem

theorem has_of_list (mem : u ∈ T.encodeAll s.list) : s.Has u := fun _ => mem_present_of_list mem

/-- An edit can be late. -/
theorem edit (h : Lags r s b late) {e : ListEdit T.Carrier} (possible : s.Possible (.edit e)) :
    Lags r (s.step (.edit e)) (b.change (.edit e)) (late ++ b.loses (.edit e)) := by
  refine h.of_keeping ?_ ?_ h.kept rfl rfl ?_ ?_ fun _ _ mem => mem
  · rw [loses, loses, h.list]
  · rw [change, change, h.list]
  · rintro u (kept | listed)
    · exact .inl (.inl kept)
    · obtain ⟨x, mem, rfl⟩ := mem_encodeAll.mp listed
      rcases e.mem_apply_or_removed mem with still | out
      · exact .inl (.inr (mem_encodeAll.mpr ⟨x, still, rfl⟩))
      · exact .inr (mem_encodeAll.mpr ⟨x, out, rfl⟩)
  · have from' : ∀ x, x ∈ s.list ∨ x ∈ e.operand? → s.Has (T.encode x) := by
      rintro x (mem | new)
      · exact has_of_list (mem_encodeAll.mpr ⟨x, mem, rfl⟩)
      · exact possible x new
    rintro u ((kept | listed) | removed)
    · exact has_of_kept kept
    · obtain ⟨x, mem, rfl⟩ := mem_encodeAll.mp listed
      exact from' x (ListEdit.mem_of_mem_apply mem)
    · obtain ⟨x, mem, rfl⟩ := mem_encodeAll.mp removed
      exact from' x (ListEdit.mem_of_mem_removed mem)

theorem keep (h : Lags r s b late) {handles : List Variant}
    (possible : s.Possible (.engine (.keep handles))) :
    Lags r (s.step (.engine (.keep handles))) (b.change (.engine (.keep handles)))
      (late ++ b.loses (.engine (.keep handles))) := by
  refine h.of_keeping rfl h.list (congrArg (handles ++ ·) h.kept) rfl rfl ?_ ?_
    fun _ _ mem => List.mem_append_right _ mem
  · rintro u (kept | mem)
    · exact .inl (.inl (List.mem_append_right _ kept))
    · exact .inl (.inr mem)
  · rintro u ((kept | mem) | mem)
    · rcases List.mem_append.mp kept with new | kept
      · exact possible u new
      · exact has_of_kept kept
    · exact has_of_list mem
    · cases mem

theorem letGo (h : Lags r s b late) {handles : List Variant}
    (possible : s.Possible (.engine (.letGo handles))) :
    Lags r (s.step (.engine (.letGo handles))) (b.change (.engine (.letGo handles)))
      (late ++ b.loses (.engine (.letGo handles))) := by
  refine h.of_keeping rfl h.list (congrArg (handles.foldl List.erase ·) h.kept) rfl rfl ?_ ?_
    fun o busy _ => possible.2 o busy
  · rintro u (kept | mem)
    · exact (mem_or_mem_foldl_erase kept).imp_left .inl
    · exact .inl (.inr mem)
  · rintro u ((kept | mem) | mem)
    · exact has_of_kept (World.mem_of_mem_foldl_erase kept)
    · exact has_of_list mem
    · exact has_of_kept (possible.1 u mem)

/-- A change to a container can be late. -/
theorem mutate (h : Lags r s b late) {a : ArrayId} {m : Mutation}
    (possible : s.Possible (.engine (.mutate a m))) :
    Lags r (s.step (.engine (.mutate a m))) (b.change (.engine (.mutate a m)))
      (late ++ b.loses (.engine (.mutate a m))) := by
  obtain ⟨⟨reach, intact⟩, has⟩ := possible
  let c := s.world.container a
  have here : b.world.container a = c := (h.container intact).symm
  have same : m.leaves b.world c = m.leaves s.world c := (m.leaves_congr h.cls c).symm
  let left := m.leaves s.world c
  let outside := (m.handsOver c ++ s.kept) ++ T.encodeAll s.list
  have there : c.dropped = false := by simpa [World.isIntact] using intact
  have changed : (b.change (.engine (.mutate a m))).present =
      { b.world.updateContainer a fun _ => left with outside } := by
    rw [present, change, EngineStep.change, here, same, h.kept, h.list]
  have loses : b.loses (.engine (.mutate a m)) = m.replaces c := congrArg m.replaces here
  have outside' : b.present.outside = s.kept ++ T.encodeAll s.list := by
    rw [← h.kept, ← h.list]
    rfl
  have inside : ∀ u ∈ c.items, s.Has u := fun u mem _ =>
    World.mem_handles_iff.mpr (.inr (.inl ⟨a, there, mem⟩))
  refine h.of_patch (p := .putting a left outside) loses.symm h.list ?_ ?_ ?_ ?_
    fun _ _ mem => List.mem_append_right _ mem
  · show (EngineStep.change b.world b.kept _).2 = (EngineStep.change s.world s.kept _).2
    rw [EngineStep.change, EngineStep.change, here, h.kept]
  · rw [changed]
    refine World.patched_putting (w := b.present) (World.not_dropped_lt ?_) left outside
    exact (congrArg Container.dropped here).trans there
  · exact World.patched_putting (w := s.present) (World.not_dropped_lt there) left outside
  · refine .putting ?_ ?_ ((m.dropped_leaves s.world c).trans there) ?_ ?_
    · rw [outside']
      exact List.mem_append_left _ reach
    · intro u mem
      rw [outside'] at mem
      have whole : outside = m.handsOver c ++ (s.kept ++ T.encodeAll s.list) :=
        List.append_assoc ..
      rw [whole]
      exact List.mem_append_right _ mem
    · intro u mem
      rw [loses]
      have mem : u ∈ c.items := here ▸ mem
      rcases m.mem_leaves_or mem with still | handed | replaced
      · exact .inl still
      · exact .inr (.inl (List.mem_append_left _ (List.mem_append_left _ handed)))
      · exact .inr (.inr replaced)
    · rw [loses]
      intro u among intact'
      have has : s.Has u := by
        rcases among with mem | mem | replaced
        · exact (Mutation.mem_of_mem_leaves mem).elim (inside u) (has u)
        · rcases List.mem_append.mp mem with mem | listed
          · rcases List.mem_append.mp mem with handed | kept
            · exact inside u (Mutation.mem_of_mem_handsOver handed)
            · exact has_of_kept kept
          · exact has_of_list listed
        · exact inside u (Mutation.mem_of_mem_replaces replaced)
      exact has (World.isHandle_of_isIntact intact')

/-- **Every step can be late.** -/
theorem step (h : Lags r s b late) (possible : s.Possible x) :
    Lags r (s.step x) (b.change x) (late ++ b.loses x) := by
  cases x with
  | edit e => exact h.edit possible
  | engine x =>
    cases x with
    | mutate a m => exact h.mutate possible
    | keep handles => exact h.keep possible
    | letGo handles => exact h.letGo possible

end Lags

/-! ## All steps -/

/-- All steps, with nothing let go of. -/
def changes (s : Session T) (steps : List (SessionStep T)) : Session T := steps.foldl change s

/-- What all steps let go of, one after another. -/
def lost (s : Session T) : List (SessionStep T) → List Variant
  | [] => []
  | x :: rest => s.loses x ++ (s.change x).lost rest

/-- **All of it can be late.** -/
theorem Lags.run {late : List Variant} {steps : List (SessionStep T)} (h : Lags r s b late)
    (feasible : s.Feasible steps) :
    Lags r (s.after steps) (b.changes steps) (late ++ b.lost steps) := by
  induction steps generalizing s b late with
  | nil =>
    rw [lost, List.append_nil]
    exact h
  | cons x rest ih =>
    obtain ⟨possible, later⟩ := feasible
    rw [lost, ← List.append_assoc]
    exact ih (h.step possible) later

end Session

/-! ## Edits apart from the rest -/

namespace EngineStep

variable {T : ElementType}

/-- What the steps that are no edits change. -/
def changes (w : World) (kept : List Variant) : List EngineStep → World × List Variant
  | [] => (w, kept)
  | x :: rest => changes (x.change w kept).1 (x.change w kept).2 rest

def lost (w : World) (kept : List Variant) : List EngineStep → List Variant
  | [] => []
  | x :: rest => x.loses w ++ lost (x.change w kept).1 (x.change w kept).2 rest

/-- No bridge is looked at. -/
theorem change_setBridge (w : World) (kept : List Variant) (r : BridgeRef T) (e : Bridge T)
    (x : EngineStep) :
    x.change (w.setBridge r e) kept = ((x.change w kept).1.setBridge r e, (x.change w kept).2) := by
  cases x with
  | mutate a m =>
    have leaves : m.leaves (w.setBridge r e) (w.container a) = m.leaves w (w.container a) :=
      m.leaves_congr (fun _ => rfl) _
    show ((w.setBridge r e).updateContainer a fun _ => m.leaves (w.setBridge r e) (w.container a),
      _) = _
    rw [leaves]
    rfl
  | _ => rfl

theorem changes_setBridge (w : World) (kept : List Variant) (r : BridgeRef T) (e : Bridge T)
    (steps : List EngineStep) :
    changes (w.setBridge r e) kept steps =
      ((changes w kept steps).1.setBridge r e, (changes w kept steps).2) := by
  induction steps generalizing w kept with
  | nil => rfl
  | cons x rest ih => rw [changes, changes, change_setBridge, ih]

theorem lost_setBridge (w : World) (kept : List Variant) (r : BridgeRef T) (e : Bridge T)
    (steps : List EngineStep) : lost (w.setBridge r e) kept steps = lost w kept steps := by
  induction steps generalizing w kept with
  | nil => rfl
  | cons x rest ih =>
    have loses : x.loses (w.setBridge r e) = x.loses w := by cases x <;> rfl
    rw [lost, lost, change_setBridge, loses, ih]

end EngineStep

namespace Session

variable {T : ElementType} {u : Variant}

open SessionStep

/-- **Each part goes its own way**: edits are about the list, and all other steps about the rest. -/
theorem changes_eq (s : Session T) (steps : List (SessionStep T)) :
    s.changes steps =
      { world := (EngineStep.changes s.world s.kept (engineOf steps)).1
        list := ListEdit.applyAll s.list (editsOf steps)
        kept := (EngineStep.changes s.world s.kept (engineOf steps)).2 } := by
  induction steps generalizing s with
  | nil => rfl
  | cons x rest ih =>
    cases x with
    | edit e => exact ih (s.change (.edit e))
    | engine x => exact ih (s.change (.engine x))

theorem mem_lost (s : Session T) (steps : List (SessionStep T)) :
    u ∈ s.lost steps ↔ u ∈ T.encodeAll (ListEdit.removedBy s.list (editsOf steps)) ∨
      u ∈ EngineStep.lost s.world s.kept (engineOf steps) := by
  induction steps generalizing s with
  | nil =>
    simp [lost, editsOf, engineOf, ListEdit.removedBy, EngineStep.lost, ElementType.encodeAll]
  | cons x rest ih =>
    rw [lost, List.mem_append, ih]
    cases x with
    | edit e =>
      have first : u ∈ T.encodeAll (ListEdit.removedBy s.list (editsOf (.edit e :: rest))) ↔
          u ∈ T.encodeAll (e.removed s.list) ∨
            u ∈ T.encodeAll (ListEdit.removedBy (e.apply s.list) (editsOf rest)) := by
        rw [← List.mem_append]
        exact iff_of_eq (congrArg (u ∈ ·) List.map_append)
      rw [first, or_assoc]
      rfl
    | engine x =>
      have first : u ∈ EngineStep.lost s.world s.kept (engineOf (.engine x :: rest)) ↔
          u ∈ x.loses s.world ∨ u ∈ EngineStep.lost (x.change s.world s.kept).1
            (x.change s.world s.kept).2 (engineOf rest) := List.mem_append
      rw [first, or_left_comm]
      rfl

end Session

end ArrayBridge
