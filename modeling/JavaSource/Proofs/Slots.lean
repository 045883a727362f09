import JavaSource.Workbench

/-!
# What a step leaves alone

A step of a workbench makes the item in one slot; a step that adds a member to a class also empties
the slot that the member was in. All other slots are as they were, and all slots are if the step
cannot be done. So an item stays in its slot over every run of steps that do not name the slot.
-/
namespace JavaSource.Workbench

theorem get_eq_ok_iff (bench : Workbench) (slot : String) (item : Item) :
    bench.get slot = .ok item ↔ bench.find? slot = some item := by
  rw [get]
  cases bench.find? slot <;> simp

theorem bind_eq_ok_iff {ε α β : Type} (first : Except ε α) (next : α → Except ε β) (result : β) :
    (first >>= next) = .ok result ↔ ∃ value, first = .ok value ∧ next value = .ok result := by
  cases first <;> simp [bind, Except.bind]

/-- A step that changes an item puts what it makes of it in its place. -/
theorem change_eq_ok_iff (bench after : Workbench) (slot : String)
    (step : Item → Except Trouble Item) (item : Item) :
    bench.change slot step = .ok (item, after) ↔
      ∃ old, bench.find? slot = some old ∧ step old = .ok item ∧ after = bench.put slot item := by
  simp only [change, bind_eq_ok_iff, get_eq_ok_iff, pure, Except.pure, Except.ok.injEq,
    Prod.mk.injEq]
  constructor
  · rintro ⟨old, found, made, changed, rfl, rfl⟩
    exact ⟨old, found, changed, rfl⟩
  · rintro ⟨old, found, changed, rfl⟩
    exact ⟨old, found, item, changed, rfl, rfl⟩

theorem takeOut_eq_ok_iff (bench rest : Workbench) (slot target : String) (member : Member) :
    bench.takeOut slot target = .ok (member, rest) ↔
      slot ≠ target ∧ bench.find? slot = some (.member member) ∧ rest = bench.remove slot := by
  rw [takeOut]
  split
  next same => simp [same]
  next other =>
    cases bench.find? slot with
    | none => simp
    | some item => cases item <;> simp [other, eq_comm]

theorem move_eq_ok_iff (bench after : Workbench) (slot source : String) (make : Member → Item)
    (item : Item) :
    bench.move slot source make = .ok (item, after) ↔
      ∃ member, source ≠ slot ∧ bench.find? source = some (.member member) ∧ item = make member ∧
        after = (bench.remove source).put slot item := by
  simp only [move, bind_eq_ok_iff, Prod.exists, takeOut_eq_ok_iff, pure, Except.pure,
    Except.ok.injEq, Prod.mk.injEq]
  constructor
  · rintro ⟨member, rest, ⟨other, held, rfl⟩, rfl, rfl⟩
    exact ⟨member, other, held, rfl, rfl⟩
  · rintro ⟨member, other, held, rfl, rfl⟩
    exact ⟨member, _, ⟨other, held, rfl⟩, rfl, rfl⟩

/-- A member that is added goes from its slot to the end of the class, or of the root class of the
file, in the other slot. -/
theorem add_eq_ok_iff (bench after : Workbench) (slot source : String) (item : Item) :
    bench.add slot source = .ok (item, after) ↔
      ∃ member, source ≠ slot ∧ bench.find? source = some (.member member) ∧
        ((∃ root : ClassDef, bench.find? slot = some (.member root.toMember) ∧
            item = .member (root.add member).toMember) ∨
          ∃ file, bench.find? slot = some (.file file) ∧ item = .file (file.add member)) ∧
        after = (bench.remove source).put slot item := by
  constructor
  · intro done
    obtain ⟨old, got, done⟩ := (bind_eq_ok_iff _ _ _).mp done
    have found := (get_eq_ok_iff _ _ _).mp got
    split at done
    next head members =>
      obtain ⟨member, other, held, made, rest⟩ := (move_eq_ok_iff _ _ _ _ _ _).mp done
      exact ⟨member, other, held, .inl ⟨⟨head, members⟩, found, made⟩, rest⟩
    next => cases done
    next file =>
      obtain ⟨member, other, held, made, rest⟩ := (move_eq_ok_iff _ _ _ _ _ _).mp done
      exact ⟨member, other, held, .inr ⟨file, found, made⟩, rest⟩
  · rintro ⟨member, other, held, ⟨root, found, made⟩ | ⟨file, found, made⟩, rest⟩
    · have got := (get_eq_ok_iff bench slot (.member (.nested root.head root.members))).mpr found
      exact (bind_eq_ok_iff _ _ _).mpr
        ⟨_, got, (move_eq_ok_iff _ _ _ _ _ _).mpr ⟨member, other, held, made, rest⟩⟩
    · have got := (get_eq_ok_iff bench slot (.file file)).mpr found
      exact (bind_eq_ok_iff _ _ _).mpr
        ⟨_, got, (move_eq_ok_iff _ _ _ _ _ _).mpr ⟨member, other, held, made, rest⟩⟩

/-! ### One step -/

/-- What a step that was done leaves in the slots: the item it made in its own, nothing in the one
that it took a member out of, and in the others what was there. -/
structure Done (bench : Workbench) (step : Step) (item : Item) (after : Workbench) : Prop where
  made : after.find? step.slot = some item
  taken : ∀ source ∈ step.source?, source ≠ step.slot ∧ after.find? source = none ∧
    ∃ member, bench.find? source = some (.member member)
  others : ∀ other, other ≠ step.slot → other ∉ step.source? →
    after.find? other = bench.find? other

/-- A step that only puts something into its slot. -/
theorem done_put (bench : Workbench) {step : Step} (item : Item) (alone : step.source? = none) :
    Done bench step item (bench.put step.slot item) where
  made := by rw [find?_put, if_pos rfl]
  taken := by simp [alone]
  others := by
    intro other elsewhere _
    rw [find?_put, if_neg elsewhere]

theorem done_of_change {bench after : Workbench} {step : Step} {item : Item}
    {change : Item → Except Trouble Item}
    (changed : bench.change step.slot change = .ok (item, after)) (alone : step.source? = none) :
    Done bench step item after := by
  obtain ⟨old, -, -, rfl⟩ := (change_eq_ok_iff _ _ _ _ _).mp changed
  exact done_put bench item alone

theorem done_of_apply {bench after : Workbench} {step : Step} {item : Item}
    (applied : bench.apply step = .ok (item, after)) : Done bench step item after := by
  cases step with
  | new slot content =>
    cases applied
    exact done_put bench _ rfl
  | add slot source =>
    obtain ⟨member, elsewhere, held, -, rfl⟩ := (add_eq_ok_iff _ _ _ _ _).mp applied
    refine ⟨by rw [Step.slot, find?_put, if_pos rfl], ?_, ?_⟩
    · rintro _ ⟨⟩
      refine ⟨elsewhere, ?_, member, held⟩
      rw [find?_put, if_neg elsewhere, find?_remove, if_pos rfl]
    · intro other beside untaken
      have named : other ≠ slot := beside
      have kept : other ≠ source := fun same => untaken (by rw [same]; rfl)
      rw [find?_put, if_neg named, find?_remove, if_neg kept]
  | document slot step => exact done_of_change applied rfl
  | element slot kind value => exact done_of_change applied rfl
  | statement slot content => exact done_of_change applied rfl
  | file slot package => exact done_of_change applied rfl
  | options slot given => exact done_of_change applied rfl

/-- Done or not, a step leaves the slots as they were that it does not name. -/
theorem find?_perform (bench : Workbench) (step : Step) {other : String}
    (elsewhere : other ≠ step.slot) (untaken : other ∉ step.source?) :
    (bench.perform step).2.find? other = bench.find? other := by
  rw [perform]
  cases applied : bench.apply step with
  | error trouble => rfl
  | ok result => exact (done_of_apply applied).others other elsewhere untaken

/-! ### A run of steps -/

/-- The workbench after one step after another; one that cannot be done is passed over. -/
def performAll (bench : Workbench) (steps : List Step) : Workbench :=
  steps.foldl (fun bench step => (bench.perform step).2) bench

/-- An item stays in its slot over all steps that do not name the slot. -/
theorem find?_performAll (bench : Workbench) {steps : List Step} {other : String}
    (untouched : ∀ step ∈ steps, other ≠ step.slot ∧ other ∉ step.source?) :
    (bench.performAll steps).find? other = bench.find? other := by
  induction steps generalizing bench with
  | nil => rfl
  | cons step rest ih =>
    obtain ⟨elsewhere, untaken⟩ := untouched step List.mem_cons_self
    have first := bench.find?_perform step elsewhere untaken
    have later := ih (bench.perform step).2 fun step member =>
      untouched step (List.mem_cons_of_mem _ member)
    exact later.trans first

end JavaSource.Workbench
