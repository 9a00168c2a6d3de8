/-!
Contract: computations over a state, with and without a stop.
-/

namespace Assay

variable {σ τ ε α β γ δ : Type}

/-! ## Results -/

theorem bind_eq_ok {first : Except ε α} {next : α → Except ε β} {value : β} :
    first >>= next = .ok value ↔ ∃ between, first = .ok between ∧ next between = .ok value := by
  cases first <;> simp [bind, Except.bind]

theorem map_eq_ok {first : Except ε α} {f : α → β} {value : β} :
    first.map f = .ok value ↔ ∃ between, first = .ok between ∧ f between = value := by
  cases first <;> simp [Except.map]

theorem exists_ok_of_isSome {result : Except ε α} (passes : result.toOption.isSome = true) :
    ∃ value, result = .ok value := by
  cases result with
  | error stop => cases passes
  | ok value => exact ⟨value, rfl⟩

theorem exists_ok_of_any {result : Except ε α} {good : α → Bool}
    (passes : result.toOption.any good = true) : ∃ value, result = .ok value ∧ good value = true := by
  cases result with
  | error stop => cases passes
  | ok value => exact ⟨value, rfl, passes⟩

/-! ## Computations that always finish -/

namespace Computation

theorem run_bind (first : StateM σ α) (next : α → StateM σ β) (state : σ) :
    (first >>= next).run state = (next (first.run state).1).run (first.run state).2 :=
  rfl

theorem run_get_bind (next : σ → StateM σ β) (state : σ) :
    (get >>= next).run state = (next state).run state :=
  rfl

theorem run_forM_cons (body : α → StateM σ PUnit) (item : α) (items : List α) (state : σ) :
    ((item :: items).forM body).run state = (items.forM body).run ((body item).run state).2 :=
  rfl

/-- Whatever the computation does, `inv` still holds afterwards. -/
def Keeps (inv : σ → Prop) (computation : StateM σ α) : Prop :=
  ∀ state, inv state → inv (computation.run state).2

variable {inv : σ → Prop}

theorem Keeps.pure (value : α) : Keeps inv (Pure.pure value : StateM σ α) :=
  fun _ holds => holds

theorem Keeps.bind {first : StateM σ α} {next : α → StateM σ β} (keepsFirst : Keeps inv first)
    (keepsNext : ∀ value, Keeps inv (next value)) : Keeps inv (first >>= next) := by
  intro state holds
  rw [run_bind]
  exact keepsNext _ _ (keepsFirst state holds)

theorem Keeps.get_bind {next : σ → StateM σ β}
    (keepsNext : ∀ state, inv state → inv ((next state).run state).2) :
    Keeps inv (get >>= next) :=
  keepsNext

theorem Keeps.forM {items : List α} {body : α → StateM σ PUnit}
    (keepsBody : ∀ item ∈ items, Keeps inv (body item)) : Keeps inv (items.forM body) := by
  induction items with
  | nil => exact Keeps.pure _
  | cons item items ih =>
    obtain ⟨isFirst, others⟩ := List.forall_mem_cons.mp keepsBody
    exact Keeps.bind isFirst fun _ => ih others

end Computation

/-! ## Computations that may stop -/

namespace Stopping

theorem run_lift (computation : StateM σ α) (state : σ) :
    (liftM computation : ExceptT ε (StateM σ) α).run.run state =
      (.ok (computation.run state).1, (computation.run state).2) :=
  rfl

theorem run_get_bind (next : σ → ExceptT ε (StateM σ) β) (state : σ) :
    (get >>= next).run.run state = (next state).run.run state :=
  rfl

theorem run_modify_bind (change : σ → σ) (next : PUnit → ExceptT ε (StateM σ) β) (state : σ) :
    (modify change >>= next).run.run state = (next ⟨⟩).run.run (change state) :=
  rfl

theorem run_bind (first : ExceptT ε (StateM σ) α) (next : α → ExceptT ε (StateM σ) β)
    (state : σ) :
    (first >>= next).run.run state =
      match first.run.run state with
      | (.ok value, middle) => (next value).run.run middle
      | (.error stop, middle) => (.error stop, middle) := by
  rw [ExceptT.run_bind, Computation.run_bind]
  rcases first.run.run state with ⟨_ | _, _⟩ <;> rfl

/-- Whatever the computation does, and also if it stops, `inv` still holds afterwards. -/
def Keeps (inv : σ → Prop) (computation : ExceptT ε (StateM σ) α) : Prop :=
  Computation.Keeps inv computation.run

variable {inv : σ → Prop}

theorem Keeps.pure (value : α) : Keeps inv (Pure.pure value : ExceptT ε (StateM σ) α) :=
  fun _ holds => holds

theorem Keeps.lift {computation : StateM σ α} (keeps : Computation.Keeps inv computation) :
    Keeps inv (liftM computation : ExceptT ε (StateM σ) α) :=
  keeps

theorem Keeps.get_bind {next : σ → ExceptT ε (StateM σ) β}
    (keepsNext : ∀ state, inv state → inv ((next state).run.run state).2) :
    Keeps inv (get >>= next) :=
  keepsNext

/-- What the first computation establishes and the next one keeps. -/
theorem holds_bind {first : ExceptT ε (StateM σ) α} {next : α → ExceptT ε (StateM σ) β}
    {state : σ} (holds : inv (first.run.run state).2)
    (keepsNext : ∀ value, Keeps inv (next value)) :
    inv ((first >>= next).run.run state).2 := by
  rw [run_bind]
  generalize first.run.run state = outcome at holds ⊢
  rcases outcome with ⟨stop | value, after⟩
  · exact holds
  · exact keepsNext value after holds

theorem Keeps.bind {first : ExceptT ε (StateM σ) α} {next : α → ExceptT ε (StateM σ) β}
    (keepsFirst : Keeps inv first) (keepsNext : ∀ value, Keeps inv (next value)) :
    Keeps inv (first >>= next) :=
  fun state holds => holds_bind (keepsFirst state holds) keepsNext

theorem Keeps.forM {items : List α} {body : α → ExceptT ε (StateM σ) PUnit}
    (keepsBody : ∀ item ∈ items, Keeps inv (body item)) : Keeps inv (items.forM body) := by
  induction items with
  | nil => exact Keeps.pure _
  | cons item items ih =>
    obtain ⟨isFirst, others⟩ := List.forall_mem_cons.mp keepsBody
    exact Keeps.bind isFirst fun _ => ih others

/-- A computation that comes to its end has come to the end of its first part. -/
theorem bind_ok {first : ExceptT ε (StateM σ) α} {next : α → ExceptT ε (StateM σ) β}
    {state after : σ} {value : β}
    (done : (first >>= next).run.run state = (.ok value, after)) :
    ∃ between middle, first.run.run state = (.ok between, middle) ∧
      (next between).run.run middle = (.ok value, after) := by
  rw [run_bind] at done
  rcases isFirst : first.run.run state with ⟨stop | between, middle⟩
  · rw [isFirst] at done
    cases done
  · rw [isFirst] at done
    exact ⟨between, middle, rfl, done⟩

end Stopping

/-! ## Two computations side by side -/

namespace Computation

/-- From states related by `pre` the two computations come to results and states related by
`post`. -/
def Relates (pre : σ → τ → Prop) (post : α → β → σ → τ → Prop) (first : StateM σ α)
    (second : StateM τ β) : Prop :=
  ∀ state other, pre state other →
    post (first.run state).1 (second.run other).1 (first.run state).2 (second.run other).2

/-- From related states the second computation gives the image of what the first one gives, and the
states stay related. -/
abbrev Mirrors (rel : σ → τ → Prop) (image : α → β) : StateM σ α → StateM τ β → Prop :=
  Relates rel fun value shown state other => shown = image value ∧ rel state other

variable {pre : σ → τ → Prop} {post : γ → δ → σ → τ → Prop} {rel : σ → τ → Prop}

theorem Relates.bind {between : α → β → σ → τ → Prop} {first : StateM σ α} {second : StateM τ β}
    {next : α → StateM σ γ} {following : β → StateM τ δ} (relates : Relates pre between first second)
    (onwards : ∀ value shown, Relates (between value shown) post (next value) (following shown)) :
    Relates pre post (first >>= next) (second >>= following) :=
  fun state other related => onwards _ _ _ _ (relates state other related)

theorem Mirrors.pure (image : α → β) (value : α) :
    Mirrors rel image (Pure.pure value) (Pure.pure (image value)) :=
  fun _ _ related => ⟨rfl, related⟩

theorem Mirrors.bind {image : α → β} {first : StateM σ α} {second : StateM τ β}
    {next : α → StateM σ γ} {following : β → StateM τ δ} (mirrors : Mirrors rel image first second)
    (onwards : ∀ value, Relates rel post (next value) (following (image value))) :
    Relates rel post (first >>= next) (second >>= following) := by
  refine Relates.bind mirrors fun value shown state other related => ?_
  obtain ⟨rfl, related⟩ := related
  exact onwards value state other related

/-- A computation that first looks at the state, and goes on alike from related states. -/
theorem Mirrors.get_bind {rel : σ → σ → Prop} {image : α → β} {next : σ → StateM σ α}
    {following : σ → StateM σ β}
    (onwards : ∀ state other, rel state other → Mirrors rel image (next state) (following other)) :
    Mirrors rel image (get >>= next) (get >>= following) :=
  fun state other related => onwards state other related state other related

theorem Mirrors.forM {items : List α} {body : α → StateM σ PUnit} {shown : α → StateM τ PUnit}
    (mirrors : ∀ item ∈ items, Mirrors rel id (body item) (shown item)) :
    Mirrors rel id (items.forM body) (items.forM shown) := by
  induction items with
  | nil => exact Mirrors.pure id _
  | cons item items ih =>
    obtain ⟨isFirst, others⟩ := List.forall_mem_cons.mp mirrors
    exact Mirrors.bind isFirst fun _ => ih others

end Computation

namespace Stopping

/-- The same of computations that may stop, which stop at the same point. -/
def Mirrors (rel : σ → τ → Prop) (image : α → β) (first : ExceptT ε (StateM σ) α)
    (second : ExceptT ε (StateM τ) β) : Prop :=
  Computation.Mirrors rel (Except.map image) first.run second.run

variable {rel : σ → τ → Prop}

theorem Mirrors.pure (image : α → β) (value : α) :
    Mirrors rel image (Pure.pure value : ExceptT ε (StateM σ) α) (Pure.pure (image value)) :=
  fun _ _ related => ⟨rfl, related⟩

theorem Mirrors.lift {image : α → β} {first : StateM σ α} {second : StateM τ β}
    (mirrors : Computation.Mirrors rel image first second) :
    Mirrors rel image (liftM first : ExceptT ε (StateM σ) α) (liftM second) := by
  intro state other related
  obtain ⟨isImage, relatedNext⟩ := mirrors state other related
  exact ⟨congrArg Except.ok isImage, relatedNext⟩

theorem Mirrors.bind {image : α → β} {imageNext : γ → δ} {first : ExceptT ε (StateM σ) α}
    {second : ExceptT ε (StateM τ) β} {next : α → ExceptT ε (StateM σ) γ}
    {following : β → ExceptT ε (StateM τ) δ} (mirrors : Mirrors rel image first second)
    (onwards : ∀ value, Mirrors rel imageNext (next value) (following (image value))) :
    Mirrors rel imageNext (first >>= next) (second >>= following) := by
  intro state other related
  obtain ⟨isImage, relatedNext⟩ := mirrors state other related
  rw [run_bind, run_bind]
  change (second.run.run other).1 = Except.map image (first.run.run state).1 at isImage
  change rel (first.run.run state).2 (second.run.run other).2 at relatedNext
  generalize first.run.run state = outcome at isImage relatedNext ⊢
  generalize second.run.run other = shown at isImage relatedNext ⊢
  obtain ⟨result, after⟩ := outcome
  obtain ⟨resultShown, afterShown⟩ := shown
  cases isImage
  cases result with
  | error stop => exact ⟨rfl, relatedNext⟩
  | ok value => exact onwards value after afterShown relatedNext

theorem Mirrors.get_bind {rel : σ → σ → Prop} {image : α → β} {next : σ → ExceptT ε (StateM σ) α}
    {following : σ → ExceptT ε (StateM σ) β}
    (onwards : ∀ state other, rel state other → Mirrors rel image (next state) (following other)) :
    Mirrors rel image (get >>= next) (get >>= following) :=
  fun state other related => onwards state other related state other related

theorem Mirrors.modify {rel : σ → σ → Prop} {change shown : σ → σ}
    (kept : ∀ state other, rel state other → rel (change state) (shown other)) :
    Mirrors rel id (modify change : ExceptT ε (StateM σ) PUnit) (modify shown) :=
  fun state other related => ⟨rfl, kept state other related⟩

theorem Mirrors.forM {items : List α} {body : α → ExceptT ε (StateM σ) PUnit}
    {shown : α → ExceptT ε (StateM τ) PUnit}
    (mirrors : ∀ item ∈ items, Mirrors rel id (body item) (shown item)) :
    Mirrors rel id (items.forM body) (items.forM shown) := by
  induction items with
  | nil => exact Mirrors.pure id _
  | cons item items ih =>
    obtain ⟨isFirst, others⟩ := List.forall_mem_cons.mp mirrors
    exact Mirrors.bind isFirst fun _ => ih others

end Stopping

end Assay
