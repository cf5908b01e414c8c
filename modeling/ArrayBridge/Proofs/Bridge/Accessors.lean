import ArrayBridge.Proofs.Bridge.Writes

/-!
# What the accessors of a bridge answer

A setter answers nothing exactly if its first argument is an array that passes the check, and then
the bridge stands on that array's container. In every other case it answers the container on which
the bridge stands afterwards (`setAccessor_taken`, `setAccessor_refused`). So the answer of a setter
and that of the next getter agree, whatever was offered.
-/

namespace ArrayBridge

namespace World

variable {T : ElementType} {w w' : World} {r : BridgeRef T} {b : Bridge T}

/-- The first argument is the array, and the array passes the check. -/
def Offers (w : World) (T : ElementType) (arguments : List Variant) (a : ArrayId) : Prop :=
  arguments.head? = some (.array a) ∧ w.validate T a = .ok ()

/-- The container on which a bridge stands after a refusal: its own under the policy that keeps, and
a new one, empty and marked for the element type, under the policy that resets. -/
structure StandsAfterRefusal (w w' : World) (b : Bridge T) (own : Prop) (c : ArrayId) : Prop where
  keeps : b.policy = .keepPrevious ∨ own → c = b.backing
  resets : b.policy = .resetToEmpty → ¬ own → ¬ w.Knows (.array c) ∧
    (w'.container c).tag = some T.tag ∧ (w'.container c).items = []

theorem backing?_of_bridge? (h : w.bridge? r = some b) : w.backing? r = some b.backing := by
  rw [backing?, h]
  rfl

theorem getAccessor_eq {c : ArrayId} (h : w.backing? r = some c) : w.getAccessor r = .array c := by
  unfold getAccessor
  rw [h]

/-- Where a bridge stands after a refusal of something other than its own container. -/
theorem reject_stands (s : w.Sound) (g : w.Guarded r.slot) (h : w.bridge? r = some b)
    (reason : BridgeError) :
    ∃ c, (w.reject r reason).backing? r = some c ∧
      w.StandsAfterRefusal (w.reject r reason) b False c := by
  cases policy : b.policy with
  | keepPrevious =>
    have kept : (w.reject r reason).bridge? r = some b := by
      rw [reject_keeping h policy]
      exact h
    exact ⟨b.backing, backing?_of_bridge? kept, fun _ => rfl, fun resets => by
      rw [policy] at resets; cases resets⟩
  | resetToEmpty =>
    obtain ⟨b', there, new, tag, items, _⟩ := reject_reset s g h policy reason
    refine ⟨b'.backing, backing?_of_bridge? there, fun keeps => ?_, fun _ _ => ⟨?_, tag, items⟩⟩
    · rcases keeps with keeps | own
      · rw [policy] at keeps
        cases keeps
      · exact own.elim
    · rw [new]
      exact Nat.lt_irrefl _

/-- What is offered is something else than the container of the bridge, whoever refuses it. -/
theorem StandsAfterRefusal.foreign {own : Prop} {c : ArrayId}
    (h : w.StandsAfterRefusal w' b False c) (foreign : ¬ own) :
    w.StandsAfterRefusal w' b own c where
  keeps keeps := h.keeps (keeps.imp_right foreign)
  resets policy _ := h.resets policy id

/-- Where a bridge stands after it was offered an array that does not pass. -/
theorem writeUntyped_stands (s : w.Sound) (g : w.Guarded r.slot) (h : w.bridge? r = some b)
    {a : ArrayId} {reason : BridgeError} (refused : w.validate T a = .error reason) :
    ∃ c, (w.writeUntyped r a).1.backing? r = some c ∧
      w.StandsAfterRefusal (w.writeUntyped r a).1 b (a = b.backing) c := by
  by_cases own : a = b.backing
  · subst own
    obtain ⟨backing, _⟩ := writeUntyped_own s g h refused
    exact ⟨b.backing, backing, fun _ => rfl, fun _ foreign => absurd rfl foreign⟩
  · obtain ⟨c, backing, stands⟩ := reject_stands s g h reason
    rw [writeUntyped_of_foreign h refused fun same => own same.symm]
    exact ⟨c, backing, stands.foreign own⟩

/-- **What a setter takes over.** -/
theorem setAccessor_taken (s : w.Sound) (g : w.Guarded r.slot) (h : w.bridge? r = some b)
    {arguments : List Variant} (known : ∀ v ∈ arguments, w.Knows v) {a : ArrayId}
    (offers : w.Offers T arguments a) :
    (w.setAccessor r arguments).2 = none ∧ (w.setAccessor r arguments).1.backing? r = some a := by
  obtain ⟨first, valid⟩ := offers
  have there : w.Knows (.array a) := known _ (List.mem_of_head? first)
  obtain ⟨backing, _⟩ := writeUntyped_accepted s g h there valid
  have written : w.writeUntyped r a = ((w.writeUntyped r a).1, .ok ()) :=
    Prod.ext rfl ((writeUntyped_answer w r a).trans valid)
  unfold setAccessor
  simp only [first]
  rw [written]
  exact ⟨rfl, backing⟩

/-- **What a setter refuses.** It answers the container on which the bridge stands afterwards. -/
theorem setAccessor_refused (s : w.Sound) (g : w.Guarded r.slot) (h : w.bridge? r = some b)
    {arguments : List Variant} (none : ∀ a, ¬ w.Offers T arguments a) :
    ∃ c, (w.setAccessor r arguments).2 = some (.array c) ∧
      (w.setAccessor r arguments).1.backing? r = some c ∧
      w.StandsAfterRefusal (w.setAccessor r arguments).1 b
        (arguments.head? = some (.array b.backing)) c := by
  unfold setAccessor
  cases first : arguments.head? with
  | none =>
    obtain ⟨c, backing, stands⟩ := reject_stands s g h .missingArgument
    exact ⟨c, congrArg some (getAccessor_eq backing), backing, stands.foreign fun h => nomatch h⟩
  | some v =>
    cases v with
    | array a =>
      have refused : ∃ reason, w.validate T a = .error reason := by
        cases valid : w.validate T a with
        | ok _ => exact absurd ⟨first, valid⟩ (none a)
        | error reason => exact ⟨reason, rfl⟩
      obtain ⟨reason, refused⟩ := refused
      have written : w.writeUntyped r a = ((w.writeUntyped r a).1, .error reason) :=
        Prod.ext rfl ((writeUntyped_answer w r a).trans refused)
      obtain ⟨c, backing, stands⟩ := writeUntyped_stands s g h refused
      simp only
      rw [written]
      refine ⟨c, congrArg some (getAccessor_eq backing), backing, ?_⟩
      simpa only [Option.some.injEq, Variant.array.injEq] using stands
    | _ =>
      obtain ⟨c, backing, stands⟩ := reject_stands s g h (.notAnArray (w.typeName _))
      exact ⟨c, congrArg some (getAccessor_eq backing), backing,
        stands.foreign fun h => nomatch h⟩

end World

end ArrayBridge
