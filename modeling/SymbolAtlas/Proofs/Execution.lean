import SymbolAtlas.Symbol.Slots
import Mathlib.Tactic

set_option autoImplicit false

/-! # Executing programs that may fail

The programs of the library keep a state and may fail; a failed program keeps the changes it made
before. `exec` gives the outcome together with the state it leaves. Every later statement about a
program is an equation or an invariant of `exec`, and no later proof opens the monad again. -/

namespace SymbolAtlas

variable {ε σ α β : Type}

/-- The outcome of a program and the state it leaves. -/
def exec (x : ExceptT ε (StateM σ) α) (s : σ) : Except ε α × σ :=
  x.run.run s

@[simp] theorem exec_pure (a : α) (s : σ) :
    exec (pure a : ExceptT ε (StateM σ) α) s = (.ok a, s) := rfl

@[simp] theorem exec_throw (e : ε) (s : σ) :
    exec (throw e : ExceptT ε (StateM σ) α) s = (.error e, s) := rfl

@[simp] theorem exec_get (s : σ) :
    exec (get : ExceptT ε (StateM σ) σ) s = (.ok s, s) := rfl

@[simp] theorem exec_set (t s : σ) :
    exec (set t : ExceptT ε (StateM σ) PUnit) s = (.ok ⟨⟩, t) := rfl

@[simp] theorem exec_modify (f : σ → σ) (s : σ) :
    exec (modify f : ExceptT ε (StateM σ) PUnit) s = (.ok ⟨⟩, f s) := rfl

/-- A sequence runs its second part where the first one succeeds. -/
theorem exec_bind (x : ExceptT ε (StateM σ) α) (f : α → ExceptT ε (StateM σ) β) (s : σ) :
    exec (x >>= f) s = match exec x s with
      | (.ok a, s') => exec (f a) s'
      | (.error e, s') => (.error e, s') := by
  unfold exec
  simp only [ExceptT.run_bind, StateT.run_bind]
  rcases x.run.run s with ⟨_ | _, _⟩ <;> rfl

theorem exec_bind_ok {x : ExceptT ε (StateM σ) α} {s s' : σ} {a : α}
    (h : exec x s = (.ok a, s')) (f : α → ExceptT ε (StateM σ) β) :
    exec (x >>= f) s = exec (f a) s' := by
  rw [exec_bind, h]

theorem exec_bind_error {x : ExceptT ε (StateM σ) α} {s s' : σ} {e : ε}
    (h : exec x s = (.error e, s')) (f : α → ExceptT ε (StateM σ) β) :
    exec (x >>= f) s = (.error e, s') := by
  rw [exec_bind, h]

/-- What both parts of a sequence keep, the sequence keeps. -/
theorem exec_bind_invariant (P : σ → Prop) {x : ExceptT ε (StateM σ) α}
    {f : α → ExceptT ε (StateM σ) β} {s : σ} (hx : P (exec x s).2)
    (hf : ∀ a s', exec x s = (.ok a, s') → P s' → P (exec (f a) s').2) :
    P (exec (x >>= f) s).2 := by
  rw [exec_bind]
  rcases h : exec x s with ⟨_ | a, s'⟩ <;> rw [h] at hx
  · exact hx
  · exact hf a s' h hx

theorem exec_tryCatch (x : ExceptT ε (StateM σ) α) (h : ε → ExceptT ε (StateM σ) α) (s : σ) :
    exec (tryCatch x h) s = match exec x s with
      | (.ok a, s') => (.ok a, s')
      | (.error e, s') => exec (h e) s' := by
  show StateT.run (match (exec x s).1 with | .ok a => pure (.ok a) | .error e => h e)
    (exec x s).2 = _
  rcases exec x s with ⟨_ | _, _⟩ <;> rfl

/-! ## Loops over a list -/

/-- **A loop whose rounds succeed** and carry a value along. `I done b s` holds after the rounds of
`done`. -/
theorem exec_forIn_yield {γ : Type} (xs : List γ)
    (body : γ → β → ExceptT ε (StateM σ) (ForInStep β)) (I : List γ → β → σ → Prop)
    (hstep : ∀ done x rest b s, xs = done ++ x :: rest → I done b s →
      ∃ b' s', exec (body x b) s = (.ok (.yield b'), s') ∧ I (done ++ [x]) b' s') {b : β} {s : σ}
    (h : I [] b s) :
    ∃ b' s', exec (forIn xs b body) s = (.ok b', s') ∧ I xs b' s' := by
  suffices hall : ∀ rest done b s, xs = done ++ rest → I done b s →
      ∃ b' s', exec (forIn rest b body) s = (.ok b', s') ∧ I xs b' s' from hall xs [] b s rfl h
  intro rest
  induction rest with
  | nil =>
      intro done b s hxs hs
      rw [List.append_nil] at hxs
      exact ⟨b, s, rfl, by rw [hxs]; exact hs⟩
  | cons x rest ih =>
      intro done b s hxs hs
      obtain ⟨b', s', hrun, hs'⟩ := hstep done x rest b s hxs hs
      rw [List.forIn_cons, exec_bind_ok hrun]
      exact ih (done ++ [x]) b' s' (by rw [hxs, List.append_assoc]; rfl) hs'

/-- The same for a loop that carries nothing along. -/
theorem exec_forIn_ok {γ : Type} (xs : List γ)
    (body : γ → PUnit → ExceptT ε (StateM σ) (ForInStep PUnit)) (I : List γ → σ → Prop)
    (hstep : ∀ done x rest s, xs = done ++ x :: rest → I done s →
      ∃ s', exec (body x ⟨⟩) s = (.ok (.yield ⟨⟩), s') ∧ I (done ++ [x]) s') {s : σ} (h : I [] s) :
    ∃ s', exec (forIn xs ⟨⟩ body) s = (.ok ⟨⟩, s') ∧ I xs s' := by
  obtain ⟨⟨⟩, s', hrun, hs'⟩ := exec_forIn_yield xs body (fun done _ s => I done s)
    (fun done x rest _ s hxs hs => ⟨⟨⟩, hstep done x rest s hxs hs⟩) (b := ⟨⟩) h
  exact ⟨s', hrun, hs'⟩

/-- **A loop that fails in a round.** The rounds before succeed, and those after are left out. -/
theorem exec_forIn_error {γ : Type} {step : γ → ExceptT ε (StateM σ) PUnit} {x : γ}
    {before : List γ} {s s' t : σ} {e : ε}
    (hbefore : exec (forIn before PUnit.unit fun y _ => do
      step y
      pure (.yield PUnit.unit)) s = (.ok ⟨⟩, s'))
    (hx : exec (step x) s' = (.error e, t)) (after : List γ) :
    exec (forIn (before ++ x :: after) PUnit.unit fun y _ => do
      step y
      pure (.yield PUnit.unit)) s = (.error e, t) := by
  induction before generalizing s with
  | nil =>
      obtain rfl : s = s' := congrArg Prod.snd hbefore
      rw [List.nil_append, List.forIn_cons, bind_assoc, exec_bind_error hx]
  | cons y before ih =>
      rw [List.forIn_cons, bind_assoc] at hbefore
      rw [List.cons_append, List.forIn_cons, bind_assoc]
      rcases hy : exec (step y) s with ⟨_ | _, u⟩
      · rw [exec_bind_error hy] at hbefore
        cases congrArg Prod.fst hbefore
      · rw [exec_bind_ok hy, pure_bind] at hbefore ⊢
        exact ih hbefore

/-- The state after a program for each item, the first of which runs first. -/
theorem exec_mapM_cons {γ δ : Type} (x : γ) (xs : List γ) (step : γ → ExceptT ε (StateM σ) δ)
    (s : σ) :
    (exec ((x :: xs).mapM step) s).2 = match exec (step x) s with
      | (.ok _, s') => (exec (xs.mapM step) s').2
      | (.error _, s') => s' := by
  rw [List.mapM_cons, exec_bind]
  rcases exec (step x) s with ⟨_ | _, s'⟩
  · rfl
  · dsimp only
    rw [exec_bind]
    rcases exec (xs.mapM step) s' with ⟨_ | _, _⟩ <;> rfl

/-- Programs that each leave the state as it is give their results one after the other. -/
theorem exec_mapM_ok {γ δ : Type} {xs : List γ} {step : γ → ExceptT ε (StateM σ) δ}
    {f : γ → δ} {s : σ} (h : ∀ x ∈ xs, exec (step x) s = (.ok (f x), s)) :
    exec (xs.mapM step) s = (.ok (xs.map f), s) := by
  induction xs with
  | nil => rfl
  | cons x xs ih =>
      rw [List.mapM_cons, exec_bind_ok (h x List.mem_cons_self),
        exec_bind_ok (ih fun y hy => h y (List.mem_cons_of_mem x hy))]
      rfl

/-- **A loop that collects does to the state what its rounds do.** Each round runs a step and then
only changes what is collected. -/
theorem exec_forIn_collect {γ δ : Type} (xs : List γ) (step : γ → ExceptT ε (StateM σ) δ)
    (body : γ → β → ExceptT ε (StateM σ) (ForInStep β))
    (hok : ∀ x b s v s', exec (step x) s = (.ok v, s') →
      ∃ b', exec (body x b) s = (.ok (.yield b'), s'))
    (herror : ∀ x b s e s', exec (step x) s = (.error e, s') → exec (body x b) s = (.error e, s')) :
    ∀ b s, (exec (forIn xs b body) s).2 = (exec (xs.mapM step) s).2 := by
  induction xs with
  | nil => intro b s; rfl
  | cons x xs ih =>
      intro b s
      rw [List.forIn_cons, exec_mapM_cons]
      rcases hx : exec (step x) s with ⟨e | v, s'⟩
      · rw [exec_bind_error (herror x b s e s' hx)]
      · obtain ⟨b', hb'⟩ := hok x b s v s' hx
        rw [exec_bind_ok hb']
        exact ih b' s'

/-! ## Questions put to every element of a list -/

/-- If every element has an answer, the list has the list of the answers. -/
theorem mapM_ok {α β ε : Type} {f : α → Except ε β} {g : α → β} {xs : List α}
    (h : ∀ x ∈ xs, f x = .ok (g x)) : xs.mapM f = .ok (xs.map g) := by
  induction xs with
  | nil => rfl
  | cons x xs ih =>
      rw [List.mapM_cons, h x List.mem_cons_self, ih fun z hz => h z (List.mem_cons_of_mem x hz)]
      rfl

/-- If an element has no answer, the error of the list is the error of an element. -/
theorem mapM_error {α β ε : Type} {f : α → Except ε β} {xs : List α}
    (h : ∃ x ∈ xs, ∃ e, f x = .error e) :
    ∃ e, xs.mapM f = .error e ∧ ∃ x ∈ xs, f x = .error e := by
  induction xs with
  | nil => simp at h
  | cons x xs ih =>
      cases hx : f x with
      | error e =>
          refine ⟨e, ?_, x, List.mem_cons_self, hx⟩
          rw [List.mapM_cons, hx]
          rfl
      | ok y =>
          have htail : ∃ z ∈ xs, ∃ e, f z = .error e := by
            obtain ⟨z, hz, e, he⟩ := h
            rcases List.mem_cons.mp hz with rfl | hz
            · rw [hx] at he
              cases he
            · exact ⟨z, hz, e, he⟩
          obtain ⟨e, hrun, z, hz, he⟩ := ih htail
          refine ⟨e, ?_, z, List.mem_cons_of_mem x hz, he⟩
          rw [List.mapM_cons, hx, hrun]
          rfl

end SymbolAtlas
