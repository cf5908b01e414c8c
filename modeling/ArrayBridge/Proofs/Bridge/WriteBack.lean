import ArrayBridge.Proofs.Bridge.Exchange
import ArrayBridge.Proofs.Bridge.Mirror

/-!
# Writing a bridge's own container back

A caller reads the container of a bridge and writes it back. If the container does not pass the
check, the policy is not asked, and the list is up to date already. If it does pass, the bridge
takes over what it has: it derives its list again and exchanges its references.

Nothing comes of that. All elements of the container unwrap, so they did when the bridge looked
last, and the list and the references are on the same objects as before. The new list is in place
before the old one is let go of, and the new references are taken before the old are given back.
-/

namespace ArrayBridge

namespace World

variable {T : ElementType} {w : World} {r : BridgeRef T} {b : Bridge T}

/-! ## The steps of a write that passes -/

/-- A bridge that moves to where it stands lets go of a container that it still holds. -/
theorem moveTo_own (h : w.bridge? r = some b) : w.moveTo r b.backing = w.setBridge r b := by
  unfold moveTo
  rw [h]
  apply letGo_of_held
  intro v hv _
  cases List.mem_singleton.mp hv
  refine mem_handles_of_bridge (bridge?_setBridge h) ?_
  exact List.mem_append_right _ (List.mem_singleton.mpr rfl)

/-- Values that differ in nothing but which NaN they are lead to the same object. -/
theorem encode_of_canonical {x y : T.Carrier} (same : T.canonical x = T.canonical y)
    {o : ObjectId} (leads : T.encode x = .object o) : T.encode y = .object o := by
  cases T with
  | single => cases leads
  | _ =>
    have same : x = y := same
    rwa [← same]

/-- Lists that differ in nothing but which NaNs they have lead to the same objects. -/
theorem mem_encodeAll_of_canonical {values others : List T.Carrier}
    (same : values.map T.canonical = others.map T.canonical) {o : ObjectId}
    (leads : Variant.object o ∈ T.encodeAll values) : Variant.object o ∈ T.encodeAll others := by
  obtain ⟨x, hx, ho⟩ := List.mem_map.mp leads
  have there : T.canonical x ∈ others.map T.canonical := same ▸ List.mem_map.mpr ⟨x, hx, rfl⟩
  obtain ⟨y, hy, canonical⟩ := List.mem_map.mp there
  exact List.mem_map.mpr ⟨y, hy, encode_of_canonical canonical.symm ho⟩

/-- A list that is derived again to the same lets go of nothing that it does not hold. -/
theorem derive_same (h : w.bridge? r = some b)
    (same : b.values.map T.canonical = (w.derived b).values.map T.canonical) :
    w.derive r = w.setBridge r (w.derived b) := by
  unfold derive
  rw [h]
  apply letGo_of_held
  intro v hv intact
  refine mem_handles_of_bridge (bridge?_setBridge h) ?_
  refine List.mem_append_left _ (List.mem_append_right _ ?_)
  cases v with
  | object o => exact mem_encodeAll_of_canonical same hv
  | array a =>
    obtain ⟨x, _, hx⟩ := List.mem_map.mp hv
    exact absurd hx (encode_ne_array T x a)
  | _ => cases intact

/-- The objects in a list that unwraps as a whole are in the values. -/
theorem Unwraps.mem_encodeAll {items : List Variant} {all : List T.Carrier}
    (whole : w.Unwraps T items all) {o : ObjectId} (here : Variant.object o ∈ items) :
    Variant.object o ∈ T.encodeAll all := by
  induction items generalizing all with
  | nil => cases here
  | cons v rest ih =>
    obtain ⟨x, others, rfl, first, later⟩ := unwraps_cons.mp whole
    rcases List.mem_cons.mp here with rfl | here
    · refine List.mem_cons.mpr (.inl ?_)
      have read : w.decode? T (.object o) = some x := congrArg Except.toOption first
      cases T with
      | handle cls =>
        have read : (w.decodeHandle cls (.object o)).toOption = some x := read
        exact (decodeHandle_eq_some read).1
      | optionalHandle cls =>
        rw [decode_optional w cls Variant.noConfusion] at read
        obtain ⟨h, hh, rfl⟩ := Option.map_eq_some_iff.mp read
        exact (decodeHandle_eq_some hh).1
      | _ => cases first
    · exact List.mem_cons_of_mem _ (ih later here)

/-- No count goes past the most if a reference is taken on each object in the container. -/
def HasRoom (w : World) (a : ArrayId) : Prop :=
  ∀ o, (w.object o).counted = true →
    (w.object o).refs + (directObjects (w.container a).items).count o ≤ maxReferences

/-- A check of that: the container is short, and no count is near the most. -/
def isSpacious (w : World) (a : ArrayId) : Bool :=
  w.objects.all fun cell => decide (cell.refs + (w.container a).items.length ≤ maxReferences)

theorem hasRoom_of_isSpacious {a : ArrayId} (h : w.isSpacious a = true) : w.HasRoom a := by
  intro o counted
  have place := lt_of_counted counted
  have here : w.object o = w.objects[o.slot] := by simp [object, Array.getD, place]
  have room : (w.object o).refs + (w.container a).items.length ≤ maxReferences := by
    rw [here]
    exact of_decide_eq_true (Array.all_eq_true.mp h o.slot place)
  have few : (directObjects (w.container a).items).count o ≤ (w.container a).items.length :=
    Nat.le_trans List.count_le_length (List.length_filterMap_le _ _)
  exact Nat.le_trans (Nat.add_le_add_left few _) room

/-- What has been taken when the old references are not yet given back. -/
theorem object_secured (room : w.HasRoom b.backing) (o : ObjectId) :
    (w.secured r b).object o = { w.object o with
      refs := (w.object o).refs + if (w.object o).counted = true then
        (directObjects (w.container b.backing).items).count o else 0 } := by
  show (w.referenceAll (directObjects (w.container b.backing).items)).1.object o = _
  rw [object_referenceAll, refs_referenceAll_of_room (room o)]

/-- Of what is counted a bridge holds as many references as it would take now. -/
theorem Mirrors.count_retained (mirrors : w.Mirrors b) {o : ObjectId}
    (counted : (w.object o).counted = true) :
    b.retained.count o = (directObjects (w.container b.backing).items).count o := by
  obtain ⟨p, retained, counts⟩ := mirrors.retained
  rw [retained]
  by_cases here : o ∈ directObjects (w.container b.backing).items
  · exact List.count_filter (counts o here counted)
  · rw [List.count_eq_zero.mpr here, List.count_eq_zero]
    exact fun among => here (List.mem_filter.mp among).1

/-- **A look at what the bridge holds already** changes no object. -/
theorem retainBacking_same (h : w.bridge? r = some b) (mirrors : w.Mirrors b)
    (referenced : w.Referenced) (room : w.HasRoom b.backing)
    (listed : ∀ o ∈ directObjects (w.container b.backing).items,
      Variant.object o ∈ T.encodeAll b.values) :
    (w.retainBacking r).containers = w.containers ∧
      (∀ o, (w.retainBacking r).object o = w.object o) ∧
      (∀ slot, slot ≠ r.slot → (w.retainBacking r).anyBridge? slot = w.anyBridge? slot) ∧
      (w.retainBacking r).bridge? r = some { b with retained := w.inSight b } := by
  obtain ⟨w', objects, containers, bridges, _, eq⟩ := retainBacking_eq h
  have cells : ∀ o, w'.object o = (w.secured r b).object o := fun o => by
    rw [object, objects]
    rfl
  have counted_iff : ∀ o, (w'.object o).counted = (w.object o).counted := fun o => by
    rw [cells, object_secured room]
    rfl
  have entries : ∀ slot, w'.anyBridge? slot = (w.secured r b).anyBridge? slot := fun slot => by
    rw [anyBridge?, bridges]
    rfl
  have entry : w'.bridge? r = some { b with retained := w.inSight b } := by
    rw [bridge?_eq_some_iff, entries, anyBridge?_secured h, if_pos rfl]
  have keeps : ∀ o ∈ b.retained, Variant.object o ∈ w'.handles := by
    intro o ho
    obtain ⟨p, retained, _⟩ := mirrors.retained
    rw [retained] at ho
    refine mem_handles_of_bridge entry ?_
    exact List.mem_append_left _ (List.mem_append_right _ (listed o (List.mem_filter.mp ho).1))
  have spare : ∀ o ∈ b.retained, (w'.object o).counted = true →
      b.retained.count o < (w'.object o).refs := by
    intro o _ counted
    rw [counted_iff] at counted
    rw [cells, object_secured room, mirrors.count_retained counted, if_pos counted]
    exact Nat.lt_add_of_pos_left (referenced o counted)
  obtain ⟨containers', bridges', _, objects'⟩ := release_of_spare keeps spare
  rw [eq]
  refine ⟨containers'.trans (containers.trans (secured_tables w r b).2.1), ?_, ?_, ?_⟩
  · intro o
    rw [objects', lowered, counted_iff, cells, object_secured room]
    split
    · rename_i counted
      rw [mirrors.count_retained counted]
      show ({ w.object o with refs := _ + _ - _ } : ObjectCell) = w.object o
      rw [Nat.add_sub_cancel]
    · rfl
  · intro slot other
    rw [anyBridge?, bridges']
    exact (entries slot).trans ((anyBridge?_secured h slot).trans (if_neg other))
  · rw [← entry]
    exact bridge?_congr (by rw [anyBridge?, bridges']; rfl)

/-- **A write that passes** moves nothing. -/
theorem adopt_own (h : w.bridge? r = some b) (mirrors : w.Mirrors b) (referenced : w.Referenced)
    (room : w.HasRoom b.backing)
    (valid : w.validate T b.backing = .ok ()) :
    (w.adopt r b.backing).containers = w.containers ∧
      (∀ o, (w.adopt r b.backing).object o = w.object o) ∧
      (∀ slot, slot ≠ r.slot → (w.adopt r b.backing).anyBridge? slot = w.anyBridge? slot) ∧
      ∃ b', (w.adopt r b.backing).bridge? r = some b' ∧ b'.backing = b.backing ∧
        b'.revision = some (w.container b.backing).revision ∧
        b'.values.map T.canonical = b.values.map T.canonical := by
  obtain ⟨_, all, whole⟩ := validate_eq_ok_iff.mp valid
  let n := w.note (.adopted T.tag (w.container b.backing).items.length)
  let w₁ := n.setBridge r b
  let w₂ := w₁.setBridge r (w₁.derived b)
  have place : r.slot < n.bridges.size := lt_of_bridge? h
  have here₁ : w₁.bridge? r = some b := bridge?_setBridge_self place
  have here₂ : w₂.bridge? r = some (w₁.derived b) :=
    bridge?_setBridge here₁
  have whole₁ : w₁.Unwraps T (w.container b.backing).items all := whole
  have derived : (w₁.derived b).values = all := whole₁.decodeAll
  have same : b.values.map T.canonical = (w₁.derived b).values.map T.canonical := by
    rw [derived]
    exact mirrors.values all whole
  have steps : w.adopt r b.backing = w₂.retainBacking r := by
    have moved : n.moveTo r b.backing = w₁ := moveTo_own h
    unfold adopt takeOver
    rw [h]
    show ((n.moveTo r b.backing).derive r).retainBacking r = _
    rw [moved, derive_same here₁ same]
  have listed : ∀ o ∈ directObjects (w.container b.backing).items,
      Variant.object o ∈ T.encodeAll (w₁.derived b).values := by
    intro o ho
    rw [derived]
    exact whole.mem_encodeAll (mem_directObjects.mp ho)
  have mirrors₂ : w₂.Mirrors (w₁.derived b) :=
    ⟨renders_decodeAll w₂ T (w.container b.backing).items, mirrors.retained⟩
  obtain ⟨containers, objects, others, entry⟩ :=
    retainBacking_same here₂ mirrors₂ (referenced.same fun _ => rfl) room listed
  rw [steps]
  refine ⟨containers, objects, fun slot other => ?_, _, entry, rfl, rfl, same.symm⟩
  rw [others slot other, anyBridge?_setBridge_of_ne other, anyBridge?_setBridge_of_ne other]
  rfl

theorem writeBack_eq (h : w.bridge? r = some b) : w.writeBack r = w.writeUntyped r b.backing := by
  unfold writeBack
  rw [backing?, h]
  rfl

/-- **A bridge that writes back stays** where it is, and its container as it is. -/
theorem writeBack_stands (s : w.Sound) (g : w.Guarded r.slot) (h : w.bridge? r = some b) :
    let w' := (w.writeBack r).1
    w'.backing? r = some b.backing ∧
      (w'.container b.backing).items = (w.container b.backing).items ∧
      (w'.container b.backing).revision = (w.container b.backing).revision := by
  intro w'
  have known := (s.bridge r.slot T b (bridge?_eq_some_iff.mp h)).backing
  have write : w' = (w.writeUntyped r b.backing).1 := congrArg Prod.fst (writeBack_eq h)
  have step : w.Evolves (.bridge r.slot) (w.writeUntyped r b.backing).1 :=
    (course_writeUntyped s (Footprint.quiet_bridge r.slot) rfl known).evolves
      (Footprint.quiet_bridge r.slot)
  rw [write]
  refine ⟨?_, step.container b.backing known fun h => h⟩
  cases valid : w.validate T b.backing with
  | ok _ => exact (writeUntyped_accepted s g h known valid).1
  | error reason => exact (writeUntyped_own s g h valid).1

/-- **Writing back moves nothing** of a bridge that mirrors its container. -/
theorem writeBack_same (s : w.Sound) (g : w.Guarded r.slot) (h : w.bridge? r = some b)
    (current : w.IsCurrent b) (mirrors : w.Mirrors b) (referenced : w.Referenced)
    (room : w.HasRoom b.backing) :
    let w' := (w.writeBack r).1
    w'.containers = w.containers ∧ (∀ o, w'.object o = w.object o) ∧
      (∀ slot, slot ≠ r.slot → w'.anyBridge? slot = w.anyBridge? slot) ∧
      (w'.readNative r).2.map T.canonical = b.values.map T.canonical := by
  intro w'
  have write : w' = (w.writeUntyped r b.backing).1 := congrArg Prod.fst (writeBack_eq h)
  cases valid : w.validate T b.backing with
  | ok _ =>
    have known := (s.bridge r.slot T b (bridge?_eq_some_iff.mp h)).backing
    have guarded : (w.adopt r b.backing).Guarded r.slot :=
      (course_adopt s (Footprint.quiet_bridge r.slot) rfl known valid).guarded
        (Footprint.quiet_bridge r.slot) g
    obtain ⟨containers, objects, others, b', entry, backing, revision, values⟩ :=
      adopt_own h mirrors referenced room valid
    rw [write, writeUntyped_of_ok valid]
    refine ⟨containers, objects, others, ?_⟩
    have current' : (w.adopt r b.backing).IsCurrent b' := by
      rw [IsCurrent, revision, backing, container, container, containers]
    rw [readNative_eq guarded entry, if_pos current', values]
  | error reason =>
    have noted : (w.note (.rejectedOwnBacking T.tag reason)).bridge? r = some b := h
    rw [write, writeUntyped_of_own h valid, sync_of_current noted current]
    refine ⟨rfl, fun _ => rfl, fun _ _ => rfl, ?_⟩
    rw [readNative_note g h, readNative_eq g h, if_pos current]

/-- The world after a native read, of which the caller keeps some handles. -/
def afterRead (w : World) (r : BridgeRef T) (kept : List Variant) : World :=
  (w.readNative r).1.step (.keep kept)

end World

/-- **Writing a bridge's own container back does nothing.** In every world that a run leads to, for
a bridge that is open and can be reached: after a native read, of which the caller keeps whatever he
likes, the container is written back. Whether that is accepted or refused, the bridge stays on its
container, with the same elements at the same revision. And unless a count goes past the most while
the bridge holds the new references and the old ones,

- no container is changed in any way;
- every object lives or not as before, and counts as many references;
- every other bridge is as it was;
- the next native read answers the same, but for which NaN is which.

What is asked of the run is that a revision tells, as for any native read to be up to date. -/
theorem write_back_does_nothing {past : List Event} {w : World} (run : Run past w)
    (tell : RevisionsTell past) {T : ElementType} {r : BridgeRef T}
    (opened : (w.bridge? r).isSome = true) (hand : w.AtHand r.slot) {kept : List Variant}
    (known : ∀ v ∈ kept, (w.readNative r).1.Knows v) :
    let values := (w.readNative r).2
    let w₁ := w.afterRead r kept
    let w₂ := (w₁.writeBack r).1
    ∃ a, w₁.backing? r = some a ∧ w₂.backing? r = some a ∧
      (w₂.container a).items = (w₁.container a).items ∧
      (w₂.container a).revision = (w₁.container a).revision ∧
      (w₁.HasRoom a → w₂.containers = w₁.containers ∧ (∀ o, w₂.object o = w₁.object o) ∧
        (∀ slot, slot ≠ r.slot → w₂.anyBridge? slot = w₁.anyBridge? slot) ∧
        (w₂.readNative r).2.map T.canonical = values.map T.canonical) := by
  intro values w₁ w₂
  obtain ⟨b, here⟩ := Option.isSome_iff_exists.mp opened
  have s := run.sound
  have g := s.guarded hand
  have quiet := Footprint.quiet_bridge r.slot
  have read : Run _ (w.readNative r).1 := run.step (.readNative r) hand
  have keep : Run _ w₁ := read.step (.keep kept) known
  have opening := World.bridge?_eq_some_iff.mp here
  have behind := run.mirrored tell r.slot T b opening
  have few := run.few tell r.slot (by simp [opening]) b.backing
  obtain ⟨b', entry, current, mirrors⟩ := World.mirrorsAt_sync s g here behind few
  have answer : values = b'.values := World.nativeValues_eq entry
  have guarded : w₁.Guarded r.slot := by
    intro o fields there field
    have synced : (w.sync r).Guarded r.slot := (World.course_sync s rfl).guarded quiet g
    obtain ⟨lent, held⟩ := synced o fields there field
    exact ⟨lent, List.mem_append_right kept held⟩
  have mirrors' : w₁.Mirrors b' :=
    mirrors.evolve (World.evolves_step read.sound known) (read.sound.items b'.backing) rfl
  have entry' : w₁.bridge? r = some b' := entry
  obtain ⟨stands, items, revision⟩ := World.writeBack_stands keep.sound guarded entry'
  refine ⟨b'.backing, ?_, stands, items, revision, fun room => ?_⟩
  · rw [World.backing?, entry']
    rfl
  · rw [answer]
    exact World.writeBack_same keep.sound guarded entry' current mirrors' keep.referenced room

/-- A bridge with an object, and one whose container was given something else through an alias. Both
reset when a write is refused. -/
def besides : List Action :=
  [ .allocate .empty .refCounted ⟨none, []⟩,
    .newBridge (.handle .refCounted) [⟨⟨0⟩⟩] .resetToEmpty,
    .newBridge (.int .i64) [⟨1, by decide⟩] .resetToEmpty,
    .append ⟨1⟩ (.bool true) ]

/-- The first container is accepted, and the object keeps its two references; the second is refused,
and keeps what was put into it. -/
theorem write_back_does_nothing_besides : ∃ past w, Run past w ∧
    ∃ (r : BridgeRef (.handle .refCounted)) (q : BridgeRef (.int .i64)) (kept : List Variant),
      ((w.afterRead r kept).writeBack r).2 = .ok () ∧
      ((w.afterRead r kept).writeBack r).1.referenceCount ⟨0⟩ = some 2 ∧
      ((w.afterRead q []).writeBack q).2 =
        .error (.elementConversionFailure 1 "int" (.typeMismatch "int" "bool")) ∧
      (((w.afterRead q []).writeBack q).1.container ⟨1⟩).items.length = 2 := by
  have run := Run.start.script besides (by cbv)
  have tell : RevisionsTell (eventsFrom .empty [] besides) := .of_length (by cbv)
  let r : BridgeRef (.handle .refCounted) := ⟨0⟩
  let q : BridgeRef (.int .i64) := ⟨1⟩
  have known : ∀ v ∈ [Variant.object ⟨0⟩], ((worldFrom .empty besides).readNative r).1.Knows v := by
    intro v hv
    cases List.mem_singleton.mp hv
    exact of_decide_eq_true (by cbv)
  have none : ∀ v ∈ [], ((worldFrom .empty besides).readNative q).1.Knows v :=
    fun v hv => absurd hv List.not_mem_nil
  obtain ⟨a, first, _, _, _, accepted⟩ := write_back_does_nothing run tell (r := r) (by cbv)
    (World.reachable_iff.mp (by cbv)) known
  obtain ⟨c, second, _, items, _⟩ := write_back_does_nothing run tell (r := q) (by cbv)
    (World.reachable_iff.mp (by cbv)) none
  have first : some a = some ⟨0⟩ := first.symm.trans (by cbv)
  have second : some c = some ⟨1⟩ := second.symm.trans (by cbv)
  cases first
  cases second
  obtain ⟨_, objects, _⟩ := accepted (World.hasRoom_of_isSpacious (by cbv))
  refine ⟨_, _, run, r, q, [.object ⟨0⟩], by cbv, ?_, by cbv, ?_⟩
  · rw [World.referenceCount, objects]
    cbv
  · rw [items]
    cbv

end ArrayBridge
