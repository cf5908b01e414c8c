import ArrayBridge.Proofs.Number.Value
import ArrayBridge.Proofs.Run.Script
import ArrayBridge.Proofs.World.Codec

/-!
# Wrapping is faithful

Both ways between native values and variants. A value that is wrapped is unwrapped as it was, if
what it leads to lives. A variant that is unwrapped is wrapped into the variant that it was, with
the one proviso that a double may be rounded on its way to a single; it is not where the double is
exactly a single (`Binary64.IsSingle`).

At the edges of the ranges: an integer is taken exactly if the width has it, and no finite double
becomes an infinite single.
-/

namespace ArrayBridge

namespace World

variable {T : ElementType} {w : World}

theorem eq_ok_of_toOption {ε α : Type} {e : Except ε α} {a : α} (h : e.toOption = some a) :
    e = .ok a := by
  cases e with
  | ok b => exact congrArg Except.ok (Option.some.inj h)
  | error _ => cases h

/-- **There and back**: what is wrapped is unwrapped, one NaN for all. -/
theorem exists_decode_encode {x : T.Carrier} (fit : w.Befits T x) (stands : w.standing T x = true) :
    ∃ y, w.decode T (T.encode x) = .ok y ∧ T.canonical y = T.canonical x := by
  have back := decode_encode fit
  rw [if_pos stands] at back
  obtain ⟨y, decoded, same⟩ := Option.map_eq_some_iff.mp back
  exact ⟨y, eq_ok_of_toOption decoded, same⟩

/-- An integer is unwrapped at a width exactly as the value of that width with the same number. -/
theorem decode_int_eq_ok_iff {width : IntWidth} {n : Int64} {x : width.Value} :
    w.decode (.int width) (.int n) = .ok x ↔ n.toInt = x.val := by
  show (if range : width.low ≤ n.toInt ∧ n.toInt ≤ width.high then Except.ok ⟨n.toInt, range⟩
    else Except.error (ConversionError.integerOverflow n width.name)) = Except.ok x ↔ _
  constructor
  · intro decoded
    split at decoded
    · exact congrArg Subtype.val (Except.ok.inj decoded)
    · cases decoded
  · intro same
    have range : width.low ≤ n.toInt ∧ n.toInt ≤ width.high := by
      rw [same]
      exact x.property
    rw [dif_pos range]
    exact congrArg Except.ok (Subtype.ext same)

/-- A double is unwrapped as a single unless it is too large. -/
theorem decode_single_eq_ok_iff {d : Binary64} {x : Binary32} :
    w.decode .single (.float d) = .ok x ↔ d.overflowsSingle = false ∧ d.narrow = x := by
  show (if d.overflowsSingle then Except.error (ConversionError.floatOverflow d "f32")
    else Except.ok d.narrow) = Except.ok x ↔ _
  cases d.overflowsSingle <;> simp

/-- **Back and there**: what is unwrapped, but as a single, was wrapped from the value. -/
theorem encode_of_decode {v : Variant} {x : T.Carrier} (wide : T ≠ .single)
    (decoded : w.decode T v = .ok x) : T.encode x = v := by
  cases T with
  | single => exact absurd rfl wide
  | bool =>
    cases v with
    | bool b => cases decoded; rfl
    | _ => cases decoded
  | double =>
    cases v with
    | float d => cases decoded; rfl
    | _ => cases decoded
  | string =>
    cases v with
    | string s => cases decoded; rfl
    | _ => cases decoded
  | int width =>
    cases v with
    | int n =>
      have same : n.toInt = Subtype.val x := decode_int_eq_ok_iff.mp decoded
      show Variant.int (Int64.ofInt (Subtype.val x)) = Variant.int n
      rw [← same, Int64.ofInt_toInt]
    | _ => cases decoded
  | handle cls =>
    have found : (w.decodeHandle cls v).toOption = some x := congrArg Except.toOption decoded
    exact (decodeHandle_eq_some found).1.symm
  | optionalHandle cls =>
    have found : w.decode? (.optionalHandle cls) v = some x := congrArg Except.toOption decoded
    by_cases nil : v = .nil
    · subst nil
      cases decoded
      rfl
    · rw [decode_optional w cls nil] at found
      obtain ⟨h, there, rfl⟩ := Option.map_eq_some_iff.mp found
      exact (decodeHandle_eq_some there).1.symm

/-- Only a float is unwrapped as a single. -/
theorem float_of_decode_single {v : Variant} {x : Binary32} (decoded : w.decode .single v = .ok x) :
    ∃ d, v = .float d ∧ d.overflowsSingle = false ∧ d.narrow = x := by
  cases v with
  | float d => exact ⟨d, rfl, decode_single_eq_ok_iff.mp decoded⟩
  | _ => cases decoded

end World

/-- **The codec is faithful both ways**, in every world:

- a value whose object, if it has one, is a live instance of its class is unwrapped from its variant
  as it was, one NaN for all;
- a variant that is unwrapped, but as a single, is the one that the value is wrapped into, and so is
  one that is unwrapped as a single, if its float is exactly a single; every such float is taken;
- an integer is unwrapped exactly if it is in the range of the width;
- no finite float is unwrapped as an infinite single. -/
theorem codec_faithful (w : World) :
    (∀ T (x : T.Carrier), w.Befits T x → w.standing T x = true →
      ∃ y, w.decode T (T.encode x) = .ok y ∧ T.canonical y = T.canonical x) ∧
    (∀ T v (x : T.Carrier), T ≠ .single → w.decode T v = .ok x → T.encode x = v) ∧
    (∀ v (x : Binary32), w.decode .single v = .ok x →
      ∃ d, v = .float d ∧ (d.IsSingle → ElementType.encode .single x = v)) ∧
    (∀ d : Binary64, d.IsSingle → ∃ x, w.decode .single (.float d) = .ok x) ∧
    (∀ width n, (∃ x, w.decode (.int width) (.int n) = .ok x) ↔
      width.low ≤ n.toInt ∧ n.toInt ≤ width.high) ∧
    ∀ (d : Binary64) (x : Binary32), d.isFinite = true → w.decode .single (.float d) = .ok x →
      x.isFinite = true := by
  refine ⟨fun T x fit stands => World.exists_decode_encode fit stands,
    fun T v x wide decoded => World.encode_of_decode wide decoded, ?_, ?_, ?_, ?_⟩
  · intro v x decoded
    obtain ⟨d, rfl, _, rfl⟩ := World.float_of_decode_single decoded
    refine ⟨d, rfl, fun exact' => ?_⟩
    exact congrArg Variant.float (Binary64.widen_narrow exact')
  · intro d exact'
    obtain ⟨y, _, rfl⟩ := Binary64.exists_widen_eq exact'
    exact ⟨_, World.decode_single_eq_ok_iff.mpr ⟨Binary32.not_overflowsSingle_widen y, rfl⟩⟩
  · intro width n
    constructor
    · rintro ⟨x, decoded⟩
      rw [World.decode_int_eq_ok_iff.mp decoded]
      exact x.property
    · intro range
      exact ⟨⟨n.toInt, range⟩, World.decode_int_eq_ok_iff.mpr rfl⟩
  · intro d x finite decoded
    obtain ⟨fits, rfl⟩ := World.decode_single_eq_ok_iff.mp decoded
    exact Binary64.isFinite_narrow finite fits

/-- One half, as a double. -/
def half : Binary64 := ⟨0x3fe0000000000000⟩

/-- One half is exactly a single. -/
theorem isSingle_half : half.IsSingle := by
  refine .inr ⟨by decide, ⟨0x3f000000⟩, by decide, ?_⟩
  have single : (⟨0x3f000000⟩ : Binary32).value = 1 * ((2 ^ 23 : Nat) * 2 ^ (-24 : ℤ)) := rfl
  have double : half.value = 1 * ((2 ^ 52 : Nat) * 2 ^ (-53 : ℤ)) := rfl
  rw [single, double]
  norm_num

/-- An object of a class that is derived from the root. -/
def oneCounted : List Action := [.allocate .empty .refCounted ⟨none, []⟩]

/-- A handle on a live object, an integer at the edge of its width and one beyond, and one half. -/
theorem codec_faithful_at_edges :
    let w := worldFrom .empty oneCounted
    w.decode (.handle .object) (.object ⟨0⟩) = .ok (Handle.mk ⟨0⟩) ∧
      ElementType.encode (.int .u8) ⟨255, by decide⟩ = .int 255 ∧
      (¬ ∃ x, w.decode (.int .i8) (.int 128) = .ok x) ∧
      ∃ x : Binary32, w.decode .single (.float half) = .ok x ∧
        ElementType.encode .single x = .float half ∧ x.isFinite = true := by
  intro w
  obtain ⟨there, back, single, taken, range, finite⟩ :=
    codec_faithful (worldFrom .empty oneCounted)
  have derived : ((worldFrom .empty oneCounted).object ⟨0⟩).cls.inherits .object = true := by cbv
  have alive : ((worldFrom .empty oneCounted).object ⟨0⟩).alive = true := by cbv
  refine ⟨?_, ?_, ?_, ?_⟩
  · have fit : (worldFrom .empty oneCounted).Befits (.handle .object) (Handle.mk ⟨0⟩) := by
      intro cls o isClass isObject
      cases isClass
      cases isObject
      exact derived
    obtain ⟨y, decoded, same⟩ := there (.handle .object) _ fit alive
    exact decoded.trans (congrArg Except.ok same)
  · exact back (.int .u8) _ _ (by decide) (World.decode_int_eq_ok_iff.mpr rfl)
  · intro taken
    exact absurd (range .i8 128 |>.mp taken).2 (by decide)
  · obtain ⟨x, decoded⟩ := taken half isSingle_half
    obtain ⟨d, same, exact'⟩ := single _ x decoded
    obtain rfl := Variant.float.inj same
    exact ⟨x, decoded, exact' isSingle_half, finite half x (by decide) decoded⟩

end ArrayBridge
