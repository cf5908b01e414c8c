import ArrayBridge.Proofs.Number.Conversion
import ArrayBridge.Proofs.World.Sound

/-!
# Wrapping and unwrapping

A value that is wrapped is unwrapped again as it was, with two provisos: a handle has to lead to a
live instance of its class, and of a NaN only that it is one comes back. The first is a matter of
the world (`World.standing`, `World.Befits`), the second of the type (`ElementType.canonical`).

**In later worlds** a list unwraps to what it unwrapped to before, without the handles whose objects
have died since (`decodeAll_evolve`). Nothing that did not unwrap will ever do so.
-/

namespace ArrayBridge

/-- The value, with one NaN for all. Only singles need it: a double comes back bit for bit. -/
def ElementType.canonical : (T : ElementType) → T.Carrier → T.Carrier
  | .single, (x : Binary32) => (if x.isNaN then Binary.nan .single else x : Binary32)
  | .bool, x | .int _, x | .double, x | .string, x | .handle _, x | .optionalHandle _, x => x

namespace World

variable {T : ElementType} {w w' : World} {fp : Footprint}

/-- Whether the value is no handle on a freed object. -/
def standing (w : World) (T : ElementType) (x : T.Carrier) : Bool :=
  match T.encode x with
  | .object o => (w.object o).alive
  | _ => true

/-- A handle leads to an instance of its class, freed or not. -/
def Befits (w : World) (T : ElementType) (x : T.Carrier) : Prop :=
  ∀ cls o, T.class? = some cls → T.encode x = .object o → w.isInstance o cls = true

theorem standing_canonical (w : World) (x : T.Carrier) :
    w.standing T (T.canonical x) = w.standing T x := by
  cases T <;> rfl

/-- Only handles fall. -/
theorem standing_of_scalar (scalar : T.class? = none) (x : T.Carrier) :
    w.standing T x = true := by
  cases T with
  | handle cls | optionalHandle cls => cases scalar
  | _ => rfl

/-! ## There and back -/

theorem handleTo_eq (w : World) (cls : ClassInfo) (o : ObjectId) :
    (w.handleTo cls o).toOption =
      if (w.object o).alive = true ∧ w.isInstance o cls = true then some ⟨o⟩ else none := by
  unfold handleTo
  cases (w.object o).alive with
  | false => rfl
  | true =>
    cases w.isInstance o cls <;> rfl

theorem decodeHandle_of_instance {cls : ClassInfo} (h : Handle cls)
    (instance' : w.isInstance h.object cls = true) :
    (w.decodeHandle cls (.object h.object)).toOption =
      if (w.object h.object).alive then some h else none := by
  show (w.handleTo cls h.object).toOption = _
  rw [handleTo_eq, instance']
  simp only [and_true]

/-- The range of a width is inside that of the variant's integers. -/
theorem toInt_ofInt {width : IntWidth} {n : Int} (range : width.low ≤ n ∧ n ≤ width.high) :
    (Int64.ofInt n).toInt = n := by
  obtain ⟨low, high⟩ := range
  refine Int64.toInt_ofInt_of_le ?_ ?_
  · cases width <;> simp only [IntWidth.low, IntWidth.high] at low high <;> omega
  · cases width <;> simp only [IntWidth.low, IntWidth.high] at low high <;> omega

theorem decode_int {width : IntWidth} (n : width.Value) :
    w.decode? (.int width) (.int (Int64.ofInt n.val)) = some n := by
  obtain ⟨n, range⟩ := n
  have back : (Int64.ofInt n).toInt = n := toInt_ofInt range
  have inside : width.low ≤ (Int64.ofInt n).toInt ∧ (Int64.ofInt n).toInt ≤ width.high := by
    rw [back]
    exact range
  simp only [decode?, decode, dif_pos inside]
  exact congrArg some (Subtype.ext back)

/-- A single comes back, and a NaN as one. -/
theorem decode_single (x : Binary32) :
    (w.decode? .single (.float x.widen)).map (ElementType.canonical .single) =
      some (ElementType.canonical .single x) := by
  have fits := Binary32.not_overflowsSingle_widen x
  simp only [decode?, decode, fits, Bool.false_eq_true, if_false]
  apply congrArg some
  show (if x.widen.narrow.isNaN then Binary.nan .single else x.widen.narrow) =
    if x.isNaN then Binary.nan .single else x
  cases nan : x.isNaN with
  | true => rw [Binary32.isNaN_narrow_widen nan, if_pos rfl, if_pos rfl]
  | false => rw [Binary32.narrow_widen nan, nan]

theorem toOption_map {ε α β : Type} (f : α → β) (e : Except ε α) :
    (e.map f).toOption = e.toOption.map f := by
  cases e <;> rfl

/-- **A wrapped value is unwrapped as it was**, unless it is a handle on a freed object. -/
theorem decode_encode {x : T.Carrier} (fit : w.Befits T x) :
    (w.decode? T (T.encode x)).map T.canonical =
      if w.standing T x then some (T.canonical x) else none := by
  cases T with
  | bool | double | string => rfl
  | int width => exact congrArg (Option.map id) (decode_int (w := w) x)
  | single => exact decode_single x
  | handle cls =>
    have instance' := fit cls (Handle.object x) rfl rfl
    have back := decodeHandle_of_instance (w := w) x instance'
    show Option.map id (w.decodeHandle cls (.object (Handle.object x))).toOption =
      if (w.object (Handle.object x)).alive then some x else none
    rw [back, Option.map_id]
    rfl
  | optionalHandle cls =>
    match x with
    | none => rfl
    | some (h : Handle cls) =>
      have instance' := fit cls h.object rfl rfl
      have back := decodeHandle_of_instance (w := w) h instance'
      show Option.map id ((w.decodeHandle cls (.object h.object)).map some).toOption =
        if (w.object h.object).alive then some (some h) else none
      rw [toOption_map, back, Option.map_id]
      split <;> rfl

/-- Only `nil` is the missing handle. -/
theorem decode_optional (w : World) (cls : ClassInfo) {v : Variant} (h : v ≠ .nil) :
    w.decode? (.optionalHandle cls) v = (w.decodeHandle cls v).toOption.map some := by
  have map := toOption_map (some : Handle cls → Option (Handle cls)) (w.decodeHandle cls v)
  cases v with
  | nil => exact absurd rfl h
  | _ => exact map

/-- What a handle is unwrapped from, and when. -/
theorem decodeHandle_eq_some {cls : ClassInfo} {v : Variant} {h : Handle cls}
    (hd : (w.decodeHandle cls v).toOption = some h) :
    v = .object h.object ∧ (w.object h.object).alive = true ∧
      w.isInstance h.object cls = true := by
  cases v with
  | object o =>
    have hd : (w.handleTo cls o).toOption = some h := hd
    rw [handleTo_eq] at hd
    split at hd
    · rename_i fit
      cases hd
      exact ⟨rfl, fit⟩
    · cases hd
  | _ => cases hd

/-- What unwraps befits its class, and stands. -/
theorem of_decode {v : Variant} {x : T.Carrier} (h : w.decode? T v = some x) :
    w.Befits T x ∧ w.standing T x = true := by
  cases T with
  | handle cls =>
    obtain ⟨rfl, alive, fit⟩ := decodeHandle_eq_some (h := x) h
    refine ⟨?_, alive⟩
    intro c o hc ho
    cases hc
    cases ho
    exact fit
  | optionalHandle cls =>
    by_cases nil : v = .nil
    · subst nil
      cases h
      refine ⟨?_, rfl⟩
      intro c o hc ho
      cases ho
    · rw [decode_optional w cls nil] at h
      obtain ⟨y, hy, rfl⟩ := Option.map_eq_some_iff.mp h
      obtain ⟨_, alive, fit⟩ := decodeHandle_eq_some hy
      refine ⟨?_, alive⟩
      intro c o hc ho
      cases hc
      cases ho
      exact fit
  | _ => exact ⟨fun c o hc _ => absurd hc (by simp [ElementType.class?]), rfl⟩

/-! ## Later -/

/-- Whether a scalar unwraps has nothing to do with the world. -/
theorem decode_of_scalar (scalar : T.class? = none) (w w' : World) (v : Variant) :
    w'.decode? T v = w.decode? T v := by
  cases T with
  | handle cls | optionalHandle cls => cases scalar
  | _ => cases v <;> rfl

theorem decodeHandle_evolve (h : w.Evolves fp w') {cls : ClassInfo} {v : Variant}
    (hv : w.Knows v) :
    (w'.decodeHandle cls v).toOption =
      (w.decodeHandle cls v).toOption.filter fun h => (w'.object h.object).alive := by
  cases v with
  | object o =>
    have hv : o.slot < w.objects.size := hv
    have same : w'.isInstance o cls = w.isInstance o cls := by
      unfold isInstance
      rw [h.cls o hv]
    show (w'.handleTo cls o).toOption = (w.handleTo cls o).toOption.filter _
    rw [handleTo_eq, handleTo_eq, same]
    cases alive : (w'.object o).alive with
    | false =>
      by_cases fit : (w.object o).alive = true ∧ w.isInstance o cls = true
      · rw [if_pos fit, if_neg fun h => absurd h.1 Bool.false_ne_true, Option.filter_some, alive]
        rfl
      · rw [if_neg fit, if_neg fun h => absurd h.1 Bool.false_ne_true]
        rfl
    | true =>
      have before := h.alive o hv alive
      by_cases fit : w.isInstance o cls = true
      · rw [if_pos ⟨rfl, fit⟩, if_pos ⟨before, fit⟩, Option.filter_some, alive]
        rfl
      · rw [if_neg fun h => fit h.2, if_neg fun h => fit h.2]
        rfl
  | _ => rfl

/-- **What unwraps later is what unwrapped before**, save the handles whose objects have died. -/
theorem decode_evolve (h : w.Evolves fp w') {v : Variant} (hv : w.Knows v) :
    w'.decode? T v = (w.decode? T v).filter (w'.standing T) := by
  cases T with
  | handle cls => exact decodeHandle_evolve h hv
  | optionalHandle cls =>
    by_cases nil : v = .nil
    · subst nil
      rfl
    · rw [decode_optional w cls nil, decode_optional w' cls nil, decodeHandle_evolve h hv]
      cases (w.decodeHandle cls v).toOption with
      | none => rfl
      | some x =>
        show Option.map some (if (w'.object x.object).alive then some x else none) =
          if (w'.object x.object).alive then some (some x) else none
        split <;> rfl
  | _ =>
    rw [decode_of_scalar rfl w w' v]
    cases w.decode? _ v with
    | none => rfl
    | some x => rfl

theorem standing_evolve (h : w.Evolves fp w') {x : T.Carrier} (hx : w.Knows (T.encode x))
    (later : w'.standing T x = true) : w.standing T x = true := by
  unfold standing at later ⊢
  cases he : T.encode x with
  | object o =>
    rw [he] at later hx
    exact h.alive o hx later
  | _ => rfl

theorem Befits.evolve {x : T.Carrier} (hb : w.Befits T x) (h : w.Evolves fp w')
    (hx : w.Knows (T.encode x)) : w'.Befits T x := by
  intro cls o hc ho
  rw [ho] at hx
  rw [isInstance, h.cls o hx]
  exact hb cls o hc ho

/-! ## Lists -/

/-- A list that was wrapped unwraps to itself without the handles on freed objects. -/
theorem decodeAll_encodeAll {values : List T.Carrier} (fit : ∀ x ∈ values, w.Befits T x) :
    (w.decodeAll T (T.encodeAll values)).map T.canonical =
      (values.filter (w.standing T)).map T.canonical := by
  induction values with
  | nil => rfl
  | cons x rest ih =>
    have first := decode_encode (fit x List.mem_cons_self)
    have others := ih fun y hy => fit y (List.mem_cons_of_mem x hy)
    show ((T.encode x :: T.encodeAll rest).filterMap (w.decode? T)).map T.canonical = _
    rw [List.filterMap_cons, List.filter_cons]
    cases stands : w.standing T x with
    | true =>
      rw [stands, if_pos rfl] at first
      obtain ⟨y, hy, same⟩ := Option.map_eq_some_iff.mp first
      rw [hy, if_pos rfl, List.map_cons, List.map_cons, same]
      exact congrArg _ others
    | false =>
      rw [stands, if_neg Bool.false_ne_true] at first
      rw [Option.map_eq_none_iff.mp first, if_neg Bool.false_ne_true]
      exact others

/-- **A list unwraps later to what it unwrapped to before**, without what has fallen since. -/
theorem decodeAll_evolve (h : w.Evolves fp w') {items : List Variant}
    (known : ∀ v ∈ items, w.Knows v) :
    w'.decodeAll T items = (w.decodeAll T items).filter (w'.standing T) := by
  unfold decodeAll
  rw [List.filter_filterMap]
  induction items with
  | nil => rfl
  | cons v rest ih =>
    have others := ih fun u hu => known u (List.mem_cons_of_mem v hu)
    rw [List.filterMap_cons, List.filterMap_cons, others,
      decode_evolve h (known v List.mem_cons_self)]

/-- The values that still stand are among those that stood before. -/
theorem filter_standing_evolve (h : w.Evolves fp w') {values : List T.Carrier}
    (known : ∀ x ∈ values, w.Knows (T.encode x)) :
    values.filter (w'.standing T) =
      (values.filter (w.standing T)).filter (w'.standing T) := by
  rw [List.filter_filter]
  apply List.filter_congr
  intro x hx
  cases later : w'.standing T x with
  | true => rw [standing_evolve h (known x hx) later]; rfl
  | false => rfl

/-- What has fallen may be left out before or after NaNs are made one. -/
theorem filter_map_canonical (w : World) (values : List T.Carrier) :
    (values.map T.canonical).filter (w.standing T) =
      (values.filter (w.standing T)).map T.canonical := by
  rw [List.filter_map]
  refine congrArg _ (List.filter_congr fun x _ => ?_)
  exact standing_canonical w x

end World

end ArrayBridge
