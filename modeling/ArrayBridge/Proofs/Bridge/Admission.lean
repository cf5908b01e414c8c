import ArrayBridge.Proofs.Bridge.Writes
import ArrayBridge.Proofs.Number.Value
import ArrayBridge.Proofs.Run.Script
import ArrayBridge.Proofs.Run.Step

/-!
# What a tag admits and what unwraps

Whether a value may be in an array is asked twice: a tag looks at the kind and the class, and
unwrapping looks at the value itself. The two are written apart, and they agree: what unwraps is
admitted, and what is admitted and does not unwrap lacks one of four things (`World.Unfit`) that a
tag cannot see. What is not admitted is of another kind or another class (`World.Foreign`).

**Tags that agree** are told apart by nothing: agreement is an equivalence, and it keeps what is
admitted, since inheritance asks for the identity of a class and not for its record.

**Arrays that are grown by checked additions** (`Grown`) hold only what the tag admits, whatever
else goes on and whatever is freed. So they can be refused for one of the four reasons only.
-/

namespace ArrayBridge

namespace World

variable {T : ElementType} {w w' : World} {v : Variant} {e : ConversionError} {cls : ClassInfo}

/-- **Why a value that the tag admits may still not unwrap.** -/
inductive Unfit (w : World) : (T : ElementType) → Variant → ConversionError → Prop where
  /-- An integer that the width does not have. -/
  | integer (width : IntWidth) (n : Int64)
      (outside : ¬ (width.low ≤ n.toInt ∧ n.toInt ≤ width.high)) :
    Unfit w (.int width) (.int n) (.integerOverflow n width.name)
  /-- A finite double beyond the largest single. -/
  | float (x : Binary64) (finite : x.isFinite = true)
      (beyond : Binary32.largest.value < |x.value|) :
    Unfit w .single (.float x) (.floatOverflow x "f32")
  /-- An instance of the class that was freed. -/
  | freed {T : ElementType} {cls : ClassInfo} (o : ObjectId) (handle : T.class? = some cls)
      (fit : w.isInstance o cls = true) (dead : (w.object o).alive = false) :
    Unfit w T (.object o) (.freedObject (w.object o).cls.name)
  /-- The null object, where a handle has to be there. -/
  | missing (cls : ClassInfo) : Unfit w (.handle cls) .nil (.typeMismatch cls.name Kind.nil.name)

/-- **Why a value that the tag does not admit does not unwrap.** -/
inductive Foreign (w : World) (T : ElementType) : Variant → ConversionError → Prop where
  /-- It is of another kind, and not the null object among objects. -/
  | kind (v : Variant) (other : v.kind ≠ T.kind) (notNull : v = .nil → T.class? = none) :
    Foreign w T v (.typeMismatch T.name (w.typeName v))
  /-- It is of another class. -/
  | cls {cls : ClassInfo} (o : ObjectId) (handle : T.class? = some cls)
      (other : w.isInstance o cls = false) (alive : (w.object o).alive = true) :
    Foreign w T (.object o) (.classMismatch cls.name (w.object o).cls.name)
  /-- It is of another class and was freed; the latter is what is told. -/
  | freed {cls : ClassInfo} (o : ObjectId) (handle : T.class? = some cls)
      (other : w.isInstance o cls = false) (dead : (w.object o).alive = false) :
    Foreign w T (.object o) (.freedObject (w.object o).cls.name)

/-! ## What a tag admits -/

theorem kind_of_handle (handle : T.class? = some cls) : T.kind = .object := by
  cases T with
  | handle cls | optionalHandle cls => rfl
  | _ => cases handle

theorem admits_of_scalar (scalar : T.class? = none) (w : World) (v : Variant) :
    w.admits T.tag v = (v.kind == T.kind) := by
  cases T with
  | handle cls | optionalHandle cls => cases scalar
  | _ => rfl

theorem admits_nil (handle : T.class? = some cls) : w.admits T.tag .nil = true := by
  cases T with
  | handle cls | optionalHandle cls => rfl
  | _ => cases handle

theorem admits_object (handle : T.class? = some cls) (o : ObjectId) :
    w.admits T.tag (.object o) = w.isInstance o cls := by
  cases T with
  | handle cls | optionalHandle cls =>
    cases handle
    rfl
  | _ => cases handle

/-- Tags that agree admit the same, whichever records they were made from. -/
theorem admits_congr {a b : TypeTag} (same : a.same b = true) (w : World) (v : Variant) :
    w.admits a v = w.admits b v := by
  obtain ⟨kind, class?⟩ := a
  obtain ⟨kind', class?'⟩ := b
  obtain ⟨kinds, classes⟩ := Bool.and_eq_true_iff.mp same
  obtain rfl : kind = kind' := beq_iff_eq.mp kinds
  cases kind with
  | object =>
    have ids : class?.map ClassInfo.id = class?'.map ClassInfo.id := by simpa using classes
    cases v with
    | object o =>
      cases class? with
      | none =>
        cases class?' with
        | none => rfl
        | some cls => cases ids
      | some cls =>
        cases class?' with
        | none => cases ids
        | some cls' =>
          have id : cls.id = cls'.id := Option.some.inj ids
          show (w.object o).cls.inherits cls = (w.object o).cls.inherits cls'
          rw [ClassInfo.inherits, ClassInfo.inherits, id]
    | _ => rfl
  | _ => rfl

end World

/-- Agreement of tags is agreement in the kind and, for objects, in the identity of the class. -/
theorem TypeTag.same_iff {a b : TypeTag} : a.same b = true ↔ a.kind = b.kind ∧
    (a.kind = .object → a.class?.map ClassInfo.id = b.class?.map ClassInfo.id) := by
  simp only [TypeTag.same, Bool.and_eq_true, beq_iff_eq, Bool.or_eq_true, bne_iff_ne]
  refine and_congr_right fun _ => ?_
  by_cases h : a.kind = .object <;> simp [h]

theorem TypeTag.equivalence_same : Equivalence fun a b : TypeTag => a.same b = true where
  refl a := same_iff.mpr ⟨rfl, fun _ => rfl⟩
  symm h := by
    obtain ⟨kind, cls⟩ := same_iff.mp h
    exact same_iff.mpr ⟨kind.symm, fun object => (cls (kind.trans object)).symm⟩
  trans h h' := by
    obtain ⟨kind, cls⟩ := same_iff.mp h
    obtain ⟨kind', cls'⟩ := same_iff.mp h'
    exact same_iff.mpr
      ⟨kind.trans kind', fun object => (cls object).trans (cls' (kind.symm.trans object))⟩

namespace World

variable {T : ElementType} {w w' : World} {v : Variant} {e : ConversionError} {cls : ClassInfo}

/-! ## What unwraps -/

/-- A handle on an object is refused alike, whether it is optional or not. -/
theorem decode_object_eq_error_iff (handle : T.class? = some cls) {o : ObjectId} :
    w.decode T (.object o) = .error e ↔ w.handleTo cls o = .error e := by
  cases T with
  | handle cls =>
    cases handle
    rfl
  | optionalHandle cls =>
    cases handle
    show (w.handleTo cls o).map some = .error e ↔ _
    cases w.handleTo cls o <;> simp [Except.map]
  | _ => cases handle

/-- Life is asked for first, and then the class. -/
theorem handleTo_eq_error_iff {o : ObjectId} :
    w.handleTo cls o = .error e ↔
      ((w.object o).alive = false ∧ e = .freedObject (w.object o).cls.name) ∨
      ((w.object o).alive = true ∧ w.isInstance o cls = false ∧
        e = .classMismatch cls.name (w.object o).cls.name) := by
  unfold handleTo
  cases (w.object o).alive <;> cases w.isInstance o cls <;> simp [eq_comm]

theorem Unfit.refused (h : w.Unfit T v e) :
    w.admits T.tag v = true ∧ w.decode T v = .error e := by
  cases h with
  | integer width n outside => exact ⟨rfl, dif_neg outside⟩
  | float x finite beyond =>
    exact ⟨rfl, if_pos (Binary64.overflowsSingle_iff.mpr ⟨finite, beyond⟩)⟩
  | freed o handle fit dead =>
    exact ⟨(admits_object handle o).trans fit, (decode_object_eq_error_iff handle).mpr
      (handleTo_eq_error_iff.mpr (.inl ⟨dead, rfl⟩))⟩
  | missing cls => exact ⟨rfl, rfl⟩

theorem Foreign.refused (h : w.Foreign T v e) :
    w.admits T.tag v = false ∧ w.decode T v = .error e := by
  cases h with
  | kind v other notNull =>
    cases T with
    | handle cls | optionalHandle cls =>
      cases v with
      | nil => exact nomatch notNull rfl
      | object o => exact absurd rfl other
      | _ => exact ⟨rfl, rfl⟩
    | bool =>
      cases v with
      | bool b => exact absurd rfl other
      | _ => exact ⟨rfl, rfl⟩
    | int width =>
      cases v with
      | int n => exact absurd rfl other
      | _ => exact ⟨rfl, rfl⟩
    | single | double =>
      cases v with
      | float x => exact absurd rfl other
      | _ => exact ⟨rfl, rfl⟩
    | string =>
      cases v with
      | string s => exact absurd rfl other
      | _ => exact ⟨rfl, rfl⟩
  | cls o handle other alive =>
    exact ⟨(admits_object handle o).trans other, (decode_object_eq_error_iff handle).mpr
      (handleTo_eq_error_iff.mpr (.inr ⟨alive, other, rfl⟩))⟩
  | freed o handle other dead =>
    exact ⟨(admits_object handle o).trans other, (decode_object_eq_error_iff handle).mpr
      (handleTo_eq_error_iff.mpr (.inl ⟨dead, rfl⟩))⟩

/-- A value of the kind of the type is refused for what it is, or for its class. -/
theorem refused_of_kind (kind : v.kind = T.kind) (refused : w.decode T v = .error e) :
    w.Unfit T v e ∨ w.Foreign T v e := by
  cases handle : T.class? with
  | none =>
    refine .inl ?_
    cases T with
    | handle cls | optionalHandle cls => cases handle
    | int width =>
      cases v with
      | int n =>
        have refused : (if range : width.low ≤ n.toInt ∧ n.toInt ≤ width.high then
            Except.ok (⟨n.toInt, range⟩ : width.Value)
          else .error (.integerOverflow n width.name)) = .error e := refused
        split at refused
        · cases refused
        · rename_i outside
          cases refused
          exact .integer width n outside
      | _ => cases kind
    | single =>
      cases v with
      | float x =>
        have refused : (if x.overflowsSingle then Except.error (.floatOverflow x "f32")
          else .ok x.narrow) = .error e := refused
        split at refused
        · rename_i overflows
          cases refused
          obtain ⟨finite, beyond⟩ := Binary64.overflowsSingle_iff.mp overflows
          exact .float x finite beyond
        · cases refused
      | _ => cases kind
    | bool =>
      cases v with
      | bool b => cases refused
      | _ => cases kind
    | double =>
      cases v with
      | float x => cases refused
      | _ => cases kind
    | string =>
      cases v with
      | string s => cases refused
      | _ => cases kind
  | some cls =>
    have objects := kind_of_handle handle
    cases v with
    | object o =>
      rcases handleTo_eq_error_iff.mp ((decode_object_eq_error_iff handle).mp refused) with
        ⟨dead, rfl⟩ | ⟨alive, other, rfl⟩
      · cases fit : w.isInstance o cls with
        | true => exact .inl (.freed o handle fit dead)
        | false => exact .inr (.freed o handle fit dead)
      · exact .inr (.cls o handle other alive)
    | _ => cases kind.trans objects

/-- **There is no other reason.** -/
theorem reason_of_refused (refused : w.decode T v = .error e) :
    w.Unfit T v e ∨ w.Foreign T v e := by
  by_cases kind : v.kind = T.kind
  · exact refused_of_kind kind refused
  by_cases notNull : v = .nil → T.class? = none
  · have foreign : w.Foreign T v (.typeMismatch T.name (w.typeName v)) := .kind v kind notNull
    cases foreign.refused.2.symm.trans refused
    exact .inr foreign
  · obtain ⟨rfl, handle⟩ := Classical.not_imp.mp notNull
    cases T with
    | handle cls =>
      cases refused
      exact .inl (.missing cls)
    | optionalHandle cls => cases refused
    | _ => exact absurd rfl handle

theorem unfit_iff : w.admits T.tag v = true ∧ w.decode T v = .error e ↔ w.Unfit T v e := by
  refine ⟨fun ⟨admitted, refused⟩ => ?_, Unfit.refused⟩
  rcases reason_of_refused refused with unfit | foreign
  · exact unfit
  · exact absurd (admitted.symm.trans foreign.refused.1) (by decide)

theorem foreign_iff : w.admits T.tag v = false ∧ w.decode T v = .error e ↔ w.Foreign T v e := by
  refine ⟨fun ⟨rejected, refused⟩ => ?_, Foreign.refused⟩
  rcases reason_of_refused refused with unfit | foreign
  · exact absurd (rejected.symm.trans unfit.refused.1) (by decide)
  · exact foreign

/-- What is not admitted has a reason not to unwrap. -/
theorem exists_foreign (rejected : w.admits T.tag v = false) : ∃ e, w.Foreign T v e := by
  by_cases null : v = .nil ∧ T.class? ≠ none
  · obtain ⟨rfl, some⟩ := null
    obtain ⟨cls, handle⟩ := Option.ne_none_iff_exists'.mp some
    rw [admits_nil handle] at rejected
    cases rejected
  by_cases other : v.kind ≠ T.kind
  · exact ⟨_, .kind v other fun nil => by_contra fun some => null ⟨nil, some⟩⟩
  have kind : v.kind = T.kind := of_not_not other
  cases handle : T.class? with
  | none =>
    rw [admits_of_scalar handle, kind, beq_self_eq_true] at rejected
    cases rejected
  | some cls =>
    have objects := kind_of_handle handle
    cases v with
    | object o =>
      rw [admits_object handle] at rejected
      cases life : (w.object o).alive with
      | false => exact ⟨_, .freed o handle rejected life⟩
      | true => exact ⟨_, .cls o handle rejected life⟩
    | _ => cases kind.trans objects

/-- **What unwraps was admitted.** -/
theorem admits_of_decode {x : T.Carrier} (unwraps : w.decode T v = .ok x) :
    w.admits T.tag v = true := by
  by_contra rejected
  obtain ⟨e, foreign⟩ := exists_foreign (Bool.not_eq_true _ ▸ rejected)
  cases unwraps.symm.trans foreign.refused.2

/-- **What is wrapped is admitted**, if it befits its class. -/
theorem admits_encode {x : T.Carrier} (fit : w.Befits T x) :
    w.admits T.tag (T.encode x) = true := by
  cases T with
  | handle cls => exact fit cls (Handle.object x) rfl rfl
  | optionalHandle cls =>
    match x with
    | none => rfl
    | some (h : Handle cls) => exact fit cls h.object rfl rfl
  | _ => rfl

end World

/-! ## Containers that were grown by checked additions -/

/-- **Containers that are grown by checked additions only**: made empty with a tag that agrees with
that of the type, and then changed, while anything else goes on, by nothing but `tryAppend`. An
addition that is refused changes nothing. -/
inductive Grown (T : ElementType) (a : ArrayId) : List Event → World → Prop where
  | new {past : List Event} {w : World} (run : Run past w) (tag : TypeTag)
      (same : tag.same T.tag = true) (place : a = ⟨w.containers.size⟩) :
    Grown T a (⟨w, .newArray (some tag) []⟩ :: past) (w.step (.newArray (some tag) []))
  | later {past : List Event} {w : World} (grown : Grown T a past w) (x : Action)
      (allowed : x.Allowed w) (checked : x.footprint.arrays a → ∃ v, x = .tryAppend a v) :
    Grown T a (⟨w, x⟩ :: past) (w.step x)

namespace World

variable {T : ElementType} {w w' : World} {v : Variant} {a : ArrayId}

/-- A container marked for a type, with nothing in it that the tag does not admit. -/
structure AllAdmitted (w : World) (T : ElementType) (a : ArrayId) : Prop where
  known : w.Knows (.array a)
  marked : w.MarkedFor T a
  items : ∀ v ∈ (w.container a).items, w.admits T.tag v = true

/-- What is admitted stays so, since classes do not change; that something is freed makes no
difference. -/
theorem admits_evolve {fp : Footprint} (h : w.Evolves fp w') (known : w.Knows v) (tag : TypeTag) :
    w'.admits tag v = w.admits tag v := by
  obtain ⟨kind, class?⟩ := tag
  cases v with
  | object o =>
    have same : ∀ cls, w'.isInstance o cls = w.isInstance o cls := fun cls => by
      rw [isInstance, isInstance, h.cls o known]
    cases kind with
    | object =>
      cases class? with
      | none => rfl
      | some cls => exact same cls
    | _ => rfl
  | _ => cases kind <;> rfl

/-- A checked addition to a container with a tag adds what the tag admits, or nothing. -/
theorem items_tryAppend {tag : TypeTag} (known : w.Knows (.array a))
    (marked : (w.container a).tag = some tag) :
    ((w.tryAppend a v).1.container a).items = (w.container a).items ∨
      (w.admits tag v = true ∧
        ((w.tryAppend a v).1.container a).items = (w.container a).items ++ [v]) := by
  unfold tryAppend onContainer
  simp only [marked]
  cases admitted : w.admits tag v with
  | true =>
    refine .inr ⟨rfl, ?_⟩
    show ((w.updateContainer a fun _ => (w.container a).append v).container a).items = _
    rw [container_updateContainer_self known]
    rfl
  | false => exact .inl rfl

namespace AllAdmitted

/-- An action that is no other than a checked addition to the container keeps it so. -/
theorem step (h : w.AllAdmitted T a) (s : w.Sound) {x : Action} (allowed : x.Allowed w)
    (checked : x.footprint.arrays a → ∃ v, x = .tryAppend a v) :
    (w.step x).AllAdmitted T a := by
  obtain ⟨known, ⟨tag, marked, same⟩, items⟩ := h
  have evolves := evolves_step s allowed
  have still : ∀ v ∈ (w.container a).items, (w.step x).admits T.tag v = true := fun v mem =>
    (admits_evolve evolves (s.items a v mem) T.tag).trans (items v mem)
  refine ⟨evolves.knows known, ⟨tag, (evolves.tag a known).trans marked, same⟩, ?_⟩
  by_cases touched : x.footprint.arrays a
  · obtain ⟨v, rfl⟩ := checked touched
    rcases items_tryAppend (v := v) known marked with unchanged | ⟨admitted, added⟩
    · rwa [← unchanged] at still
    · intro u mem
      rcases List.mem_append.mp (added ▸ mem) with old | new
      · exact still u old
      · obtain rfl := List.mem_singleton.mp new
        rw [admits_evolve evolves allowed, ← admits_congr same]
        exact admitted
  · rwa [← (evolves.container a known touched).1] at still

/-- **The check can only fail for an element** that the tag admits and that does not unwrap. -/
theorem unfit_of_validate (h : w.AllAdmitted T a) {reason : BridgeError}
    (refused : w.validate T a = .error reason) :
    ∃ index v source, (w.container a).items[index]? = some v ∧
      reason = .elementConversionFailure index T.name source ∧ w.Unfit T v source := by
  obtain ⟨_, ⟨tag, marked, same⟩, items⟩ := h
  cases validate_eq_iff.mp refused with
  | untyped none => cases none.symm.trans marked
  | mismatch actual carries other =>
    cases carries.symm.trans marked
    cases other.symm.trans same
  | failure _ index source fails =>
    obtain ⟨v, here, fails⟩ := fails.here
    exact ⟨index, v, source, here, rfl,
      unfit_iff.mp ⟨items v (List.mem_of_getElem? here), fails⟩⟩

end AllAdmitted

end World

namespace Grown

variable {T : ElementType} {a : ArrayId} {past : List Event} {w : World}

theorem run (grown : Grown T a past w) : Run past w := by
  induction grown with
  | new run tag same place => exact run.step _ fun v mem => absurd mem List.not_mem_nil
  | later _ x allowed _ ih => exact ih.step x allowed

/-- **Nothing gets in that the tag does not admit**, by any number of steps. -/
theorem allAdmitted (grown : Grown T a past w) : w.AllAdmitted T a := by
  induction grown with
  | @new past w run tag same place =>
    subst place
    have new : ((w.step (.newArray (some tag) [])).container ⟨w.containers.size⟩) =
        ⟨some tag, [], 0, false⟩ := World.container_addContainer_self w _
    refine ⟨?_, ⟨tag, ?_, same⟩, fun v mem => ?_⟩
    · exact Nat.lt_of_lt_of_eq (Nat.lt_succ_self _) (Array.size_push _).symm
    · rw [new]
    · rw [new] at mem
      cases mem
  | later grown x allowed checked ih => exact ih.step grown.run.sound allowed checked

end Grown

/-- **Tags and unwrapping agree.** In any world, for every element type and every value:

- what unwraps is admitted by the tag of the type;
- what is admitted and does not unwrap is an integer outside of the width, a finite double beyond
  the largest single, a freed instance, or the missing handle where one has to be there, and the
  refusal says so;
- what is not admitted is of another kind, or an object of another class, which is told from its
  life first;
- what is wrapped is admitted, if its handle is an instance of its class.

Tags that agree form an equivalence and admit the same values. And an array that was made empty
with a tag of the type and grown by checked additions only, in the course of any run, is refused
only for an element with one of the four reasons, which is never that of another class. -/
theorem tags_agree_with_codec :
    (∀ (w : World) (T : ElementType) (v : Variant),
      (∀ x, w.decode T v = .ok x → w.admits T.tag v = true) ∧
      (∀ e, w.admits T.tag v = true ∧ w.decode T v = .error e ↔ w.Unfit T v e) ∧
      ∀ e, w.admits T.tag v = false ∧ w.decode T v = .error e ↔ w.Foreign T v e) ∧
    (∀ (w : World) (T : ElementType) (x : T.Carrier), w.Befits T x →
      w.admits T.tag (T.encode x) = true) ∧
    (Equivalence fun a b : TypeTag => a.same b = true) ∧
    (∀ a b : TypeTag, a.same b = true → ∀ (w : World) v, w.admits a v = w.admits b v) ∧
    ∀ T a past w, Grown T a past w → ∀ (r : BridgeRef T) reason,
      (w.writeUntyped r a).2 = .error reason →
        ∃ index v source, (w.container a).items[index]? = some v ∧
          reason = .elementConversionFailure index T.name source ∧ w.Unfit T v source ∧
          ∀ expected actual, source ≠ .classMismatch expected actual := by
  refine ⟨fun w T v => ⟨fun x => World.admits_of_decode, fun e => World.unfit_iff,
    fun e => World.foreign_iff⟩, fun w T x => World.admits_encode, TypeTag.equivalence_same,
    fun a b same w v => World.admits_congr same w v, ?_⟩
  intro T a past w grown r reason refused
  rw [World.writeUntyped_answer] at refused
  obtain ⟨index, v, source, here, rfl, unfit⟩ := grown.allAdmitted.unfit_of_validate refused
  refine ⟨index, v, source, here, rfl, unfit, fun expected actual other => ?_⟩
  subst other
  cases unfit

/-- A record that has the identity of a class, and nothing else of it. -/
def namesake : ClassInfo := .root "Namesake" ClassInfo.refCounted.id false

/-- An object, and a bridge of such objects. -/
def oneAndBridge : List Action :=
  [ .allocate .empty .refCounted ⟨none, []⟩,
    .keep [.object ⟨0⟩],
    .newBridge (.handle .refCounted) [] .keepPrevious ]

/-- An array that is marked with another record of the class takes the object, and is refused once
that was freed. -/
theorem tags_agree_with_codec_freedMeanwhile : ∃ past w,
    Grown (.handle .refCounted) ⟨1⟩ past w ∧
      (w.writeUntyped (T := .handle .refCounted) ⟨0⟩ ⟨1⟩).2 =
        .error (.elementConversionFailure 0 "RefCounted" (.freedObject "RefCounted")) ∧
      w.Unfit (.handle .refCounted) (.object ⟨0⟩) (.freedObject "RefCounted") := by
  have run := Run.start.script oneAndBridge (by cbv)
  have new : Grown (.handle .refCounted) ⟨1⟩ _ _ :=
    .new run (.object namesake) (by decide) (by cbv)
  have filled := new.later (.tryAppend ⟨1⟩ (.object ⟨0⟩)) (of_decide_eq_true (by cbv))
    fun _ => ⟨_, rfl⟩
  have freed := filled.later (.unreference ⟨0⟩) (of_decide_eq_true (by cbv)) False.elim
  refine ⟨_, _, freed, by cbv, ?_⟩
  obtain ⟨_, _, _, _, rejected⟩ := tags_agree_with_codec
  obtain ⟨index, v, source, here, reason, unfit, _⟩ := rejected _ _ _ _ freed ⟨0⟩
    (.elementConversionFailure 0 "RefCounted" (.freedObject "RefCounted")) (by cbv)
  cases reason
  cases here.symm.trans (by cbv : _ = some (Variant.object ⟨0⟩))
  exact unfit

end ArrayBridge
