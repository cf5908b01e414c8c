import ArrayBridge.Proofs.World.Sound

/-!
# What bridges do, step by step

Every operation on a bridge is made of a few kinds of steps: a notice, handles let go of, a new
container, a change to one, another entry for the bridge, and a look after its references. A
`Course` is a way from one world to another by such steps, with the looks that were taken, the
latest first.

What holds of every course is proved once, with one case for each kind of step. What an operation
adds is only that it is a course. So a change to an operation changes one lemma here, and a change
to how references are looked after changes one case of each induction.
-/

namespace ArrayBridge

namespace World

variable {T : ElementType}

/-! ## Looks -/

/-- A look after the references of a bridge: which bridge, and the world in which it looks. -/
structure Look where
  slot : Nat
  world : World

/-- The look that a bridge takes in a world, if it is open. -/
def lookAt (w : World) (r : BridgeRef T) : List Look :=
  if (w.bridge? r).isSome then [⟨r.slot, w⟩] else []

/-- The look with which the native list is brought up to date. -/
def syncLooks (w : World) (r : BridgeRef T) : List Look :=
  match w.refreshed? r with
  | some w => w.lookAt r
  | none => []

def writeLooks (w : World) (r : BridgeRef T) (values : List T.Carrier) : List Look :=
  (w.rebuild r values).lookAt r

def pushLooks (w : World) (r : BridgeRef T) (x : T.Carrier) : List Look :=
  let session := w.openSession r
  session.1.writeLooks r (session.2 ++ [x]) ++ w.syncLooks r

def rejectLooks (w : World) (r : BridgeRef T) (reason : BridgeError) : List Look :=
  match w.policy? r with
  | some .resetToEmpty => (w.note (.rejectedResetting T.tag reason)).writeLooks r []
  | _ => []

/-- The world in which a bridge that takes a container over looks after its references. -/
def adopting (w : World) (r : BridgeRef T) (candidate : ArrayId) : World :=
  (w.note (.adopted T.tag (w.container candidate).items.length)).takeOver r candidate

def untypedLooks (w : World) (r : BridgeRef T) (candidate : ArrayId) : List Look :=
  match w.validate T candidate with
  | .ok () => (w.adopting r candidate).lookAt r
  | .error reason =>
    if w.backing? r = some candidate then
      (w.note (.rejectedOwnBacking T.tag reason)).syncLooks r
    else w.rejectLooks r reason

def setterLooks (w : World) (r : BridgeRef T) (arguments : List Variant) : List Look :=
  match arguments.head? with
  | some (.array candidate) => w.untypedLooks r candidate
  | some other => w.rejectLooks r (.notAnArray (w.typeName other))
  | none => w.rejectLooks r .missingArgument

/-- The looks that an action takes, the latest first. -/
def looks (w : World) : Action → List Look
  | .newBridge T values policy =>
    let new := w.openBridge T values policy
    new.1.lookAt new.2
  | .readNative r | .openSession r => w.syncLooks r
  | .writeNative r values | .closeSession r values => w.writeLooks r values
  | .pushNative r x => w.pushLooks r x
  | .writeUntyped r candidate => w.untypedLooks r candidate
  | .setAccessor r arguments => w.setterLooks r arguments
  | _ => []

/-! ## Courses -/

/-- **Courses** that touch nothing outside of a footprint, and the looks on the way. -/
inductive Course (fp : Footprint) : World → List Look → World → Prop where
  | refl (w : World) : Course fp w [] w
  | note (w : World) (n : Notice) : Course fp w [] (w.note n)
  | letGo (w : World) (handles : List Variant) : Course fp w [] (w.letGo handles)
  | addContainer (w : World) (c : Container) (known : ∀ v ∈ c.items, w.Knows v) :
    Course fp w [] (w.addContainer c).1
  | updateContainer (w : World) (a : ArrayId) (f : Container → Container) (touched : fp.arrays a)
    (tag : (f (w.container a)).tag = (w.container a).tag)
    (known : ∀ v ∈ (f (w.container a)).items, w.Knows v) :
    Course fp w [] (w.updateContainer a f)
  | setBridge (w : World) {T : ElementType} (r : BridgeRef T) {b b' : Bridge T}
    (here : w.bridge? r = some b) (touched : fp.bridges r.slot)
    (same : b'.retained = b.retained) (fits : w.Fits b') : Course fp w [] (w.setBridge r b')
  | look (w : World) {T : ElementType} (r : BridgeRef T) (touched : fp.bridges r.slot) :
    Course fp w (w.lookAt r) (w.retainBacking r)
  | trans {w w' w'' : World} {looks looks' : List Look} (first : Course fp w looks w')
    (second : Course fp w' looks' w'') : Course fp w (looks' ++ looks) w''

/-! ### A look -/

/-- What a bridge that looks takes references on: the objects in its container that count them. -/
def inSight (w : World) (b : Bridge T) : List ObjectId :=
  (directObjects (w.container b.backing).items).filter fun o => (w.object o).counted

/-- The world in which a bridge has taken its new references and not yet given back the old. -/
def secured (w : World) (r : BridgeRef T) (b : Bridge T) : World :=
  let taken := w.referenceAll (directObjects (w.container b.backing).items)
  taken.1.setBridge r { b with retained := taken.2 }

/-- A look takes the new references, may write that down, and gives the old ones back. -/
theorem retainBacking_eq {w : World} {r : BridgeRef T} {b : Bridge T} (h : w.bridge? r = some b) :
    ∃ w' : World, w'.objects = (w.secured r b).objects ∧
      w'.containers = (w.secured r b).containers ∧
      w'.bridges = (w.secured r b).bridges ∧ w'.outside = (w.secured r b).outside ∧
      w.retainBacking r = w'.release b.retained := by
  unfold retainBacking
  rw [h]
  refine ⟨_, ?_, ?_, ?_, ?_, rfl⟩ <;> (split <;> rfl)

/-- A closed bridge looks at nothing. -/
@[simp] theorem retainBacking_of_none {w : World} {r : BridgeRef T} (h : w.bridge? r = none) :
    w.retainBacking r = w := by
  unfold retainBacking
  rw [h]

/-- What happens up to the moment in which the old references are given back. -/
theorem evolves_secured {fp : Footprint} (quiet : fp.Quiet) {w : World} {r : BridgeRef T}
    {b : Bridge T} (h : w.bridge? r = some b) (touched : fp.bridges r.slot) :
    w.Evolves fp (w.secured r b) := by
  have taken := evolves_referenceAll quiet w (directObjects (w.container b.backing).items)
  refine taken.trans quiet (evolves_setBridge _ (b := b) ?_ touched)
  rw [← h]
  exact bridge?_congr (by simp [anyBridge?])

/-- What stands where after a look: all is as in the secured world, with losses. -/
theorem wanes_retainBacking {w : World} {r : BridgeRef T} {b : Bridge T}
    (h : w.bridge? r = some b) : (w.secured r b).Wanes (w.retainBacking r) := by
  obtain ⟨w', objects, containers, bridges, outside, eq⟩ := retainBacking_eq h
  rw [eq]
  exact (Wanes.of_tables outside objects containers bridges).trans (wanes_release w' b.retained)

theorem evolves_retainBacking {fp : Footprint} (quiet : fp.Quiet) (w : World) (r : BridgeRef T)
    (touched : fp.bridges r.slot) : w.Evolves fp (w.retainBacking r) := by
  cases h : w.bridge? r with
  | none =>
    rw [retainBacking_of_none h]
    exact .refl fp w
  | some b =>
    exact (evolves_secured quiet h touched).trans quiet ((wanes_retainBacking h).evolves fp)

/-- Taking references leaves the size of every table, and all containers. -/
@[simp] theorem secured_tables (w : World) (r : BridgeRef T) (b : Bridge T) :
    (w.secured r b).objects.size = w.objects.size ∧
      (w.secured r b).containers = w.containers ∧
      (w.secured r b).bridges.size = w.bridges.size ∧ (w.secured r b).outside = w.outside := by
  simp [secured, World.setBridge]

/-- The bridge that looks holds what it took, and every other bridge is as it was. -/
theorem anyBridge?_secured {w : World} {r : BridgeRef T} {b : Bridge T} (h : w.bridge? r = some b)
    (slot : Nat) :
    (w.secured r b).anyBridge? slot =
      if slot = r.slot then
        some ⟨T, { b with retained := w.inSight b }⟩
      else w.anyBridge? slot := by
  unfold secured
  by_cases hs : slot = r.slot
  · subst hs
    simp [lt_of_bridge? h, held_referenceAll, inSight]
  · rw [if_neg hs, anyBridge?_setBridge_of_ne hs]
    simp [anyBridge?]

/-- What is retained after a look is known. -/
theorem Fits.look {w : World} {b : Bridge T} (h : w.Fits b) (objects : List ObjectId) :
    w.Fits { b with retained := objects.filter fun o => (w.object o).counted } where
  backing := h.backing
  tag := h.tag
  values := h.values
  retained _ ho := lt_of_counted (List.mem_filter.mp ho).2

/-! ### What holds of every course -/

namespace Course

variable {fp : Footprint} {w w' : World} {looks : List Look}

/-- A course takes no place for an object or a bridge, and keeps what is outside. -/
theorem tables (h : Course fp w looks w') :
    w'.objects.size = w.objects.size ∧ w'.bridges.size = w.bridges.size ∧
      w'.outside = w.outside := by
  induction h with
  | refl w => exact ⟨rfl, rfl, rfl⟩
  | note w n => exact ⟨rfl, rfl, rfl⟩
  | letGo w handles =>
    have h := wanes_letGo w handles
    exact ⟨h.objects, h.bridges, h.outside⟩
  | addContainer w c => exact ⟨rfl, rfl, rfl⟩
  | updateContainer w a f => exact ⟨rfl, rfl, rfl⟩
  | setBridge w r => exact ⟨rfl, by simp [World.setBridge], rfl⟩
  | @look w T r =>
    cases h : w.bridge? r with
    | none => simp [h]
    | some b =>
      have wanes := wanes_retainBacking h
      simp [wanes.objects, wanes.bridges, wanes.outside]
  | trans _ _ first second =>
    obtain ⟨objects, bridges, outside⟩ := first
    obtain ⟨objects', bridges', outside'⟩ := second
    exact ⟨objects'.trans objects, bridges'.trans bridges, outside'.trans outside⟩

/-- **A course stays inside its footprint.** -/
theorem evolves (h : Course fp w looks w') (quiet : fp.Quiet) : w.Evolves fp w' := by
  induction h with
  | refl w => exact .refl fp w
  | note w n => exact evolves_note fp w n
  | letGo w handles => exact (wanes_letGo w handles).evolves fp
  | addContainer w c => exact evolves_addContainer fp w c
  | updateContainer w a f touched tag => exact evolves_updateContainer w a tag touched
  | setBridge w r here touched => exact evolves_setBridge _ here touched
  | look w r touched => exact evolves_retainBacking quiet w r touched
  | trans _ _ first second => exact first.trans quiet second

/-- **A course keeps a world sound.** -/
theorem sound (h : Course fp w looks w') (quiet : fp.Quiet) (s : w.Sound) : w'.Sound := by
  induction h with
  | refl w => exact s
  | note w n => exact s.wane (wanes_note w n)
  | letGo w handles => exact s.wane (wanes_letGo w handles)
  | addContainer w c known =>
    have step := evolves_addContainer fp w c
    refine s.evolve step quiet rfl rfl ?_ fun slot T b hb => (s.bridge slot T b hb).evolve step
    intro a v hv
    rcases Nat.lt_trichotomy a.slot w.containers.size with hl | he | hg
    · rw [container_addContainer_of_lt hl] at hv
      exact step.knows (s.items a v hv)
    · have : a = (w.addContainer c).2 := ArrayId.eq_of_slot he
      rw [this, container_addContainer_self] at hv
      exact step.knows (known v hv)
    · have none : (w.addContainer c).1.container a = default := by
        have : ¬ a.slot < w.containers.size + 1 := by omega
        simp [container, World.addContainer, Array.getD, this]
      rw [none] at hv
      cases hv
  | updateContainer w a f touched tag known =>
    have step := evolves_updateContainer w a tag touched
    refine s.evolve step quiet rfl rfl ?_ fun slot T b hb => (s.bridge slot T b hb).evolve step
    intro b v hv
    by_cases hb : b = a
    · subst hb
      rcases Nat.lt_or_ge b.slot w.containers.size with hs | hs
      · rw [container_updateContainer_self hs] at hv
        exact step.knows (known v hv)
      · have none : (w.updateContainer b f).container b = default := by
          simp [container, World.updateContainer, Array.getD, Nat.not_lt.mpr hs]
        rw [none] at hv
        cases hv
    · rw [container_updateContainer_of_ne hb] at hv
      exact step.knows (s.items b v hv)
  | @setBridge w T r b b' here touched same fits =>
    have step := evolves_setBridge b' here touched
    apply s.evolve step quiet rfl rfl s.items
    intro slot U c hc
    by_cases hs : slot = r.slot
    · subst hs
      rw [anyBridge?_setBridge here] at hc
      cases hc
      exact fits.evolve step
    · rw [anyBridge?_setBridge_of_ne hs] at hc
      exact (s.bridge slot U c hc).evolve step
  | @look w T r touched =>
    cases h : w.bridge? r with
    | none => simpa [h] using s
    | some b =>
      obtain ⟨objects, containers, _, outside⟩ := secured_tables w r b
      have step := evolves_secured quiet h touched
      refine (s.evolve step quiet objects outside ?_ ?_).wane (wanes_retainBacking h)
      · intro a v hv
        rw [container, containers] at hv
        exact step.knows (s.items a v hv)
      · intro slot U c hc
        rw [anyBridge?_secured h] at hc
        split at hc
        · cases hc
          have fits := s.bridge r.slot T b (bridge?_eq_some_iff.mp h)
          exact (fits.look _).evolve step
        · exact (s.bridge slot U c hc).evolve step
  | trans _ _ first second => exact second (first s)

/-- A bridge that is guarded stays guarded. -/
theorem guarded (h : Course fp w looks w') (quiet : fp.Quiet) {slot : Nat}
    (g : w.Guarded slot) : w'.Guarded slot :=
  g.evolve (h.evolves quiet) quiet h.tables.1 h.tables.2.2

/-- A guarded bridge that a course is not about stays as it is. -/
theorem stays (h : Course fp w looks w') (quiet : fp.Quiet) {slot : Nat}
    (g : w.Guarded slot) (untouched : ¬ fp.bridges slot) :
    w'.anyBridge? slot = w.anyBridge? slot := by
  induction h with
  | refl | note | addContainer | updateContainer => rfl
  | letGo w handles => exact (wanes_letGo w handles).stays g
  | setBridge w q _ touched =>
    have other : slot ≠ q.slot := by
      rintro rfl
      exact untouched touched
    simp [other]
  | look w q touched =>
    have other : slot ≠ q.slot := by
      rintro rfl
      exact untouched touched
    cases h : w.bridge? q with
    | none => simp [h]
    | some c =>
      obtain ⟨objects, _, _, outside⟩ := secured_tables w q c
      have guarded := g.evolve (evolves_secured quiet h touched) quiet objects outside
      rw [(wanes_retainBacking h).stays guarded, anyBridge?_secured h, if_neg other]
  | trans first _ ih ih' => exact (ih' (first.guarded quiet g)).trans (ih g)

end Course

end World

end ArrayBridge
