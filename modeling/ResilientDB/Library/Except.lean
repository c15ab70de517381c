import Mathlib.Algebra.BigOperators.Group.List.Basic
import Mathlib.Tactic.Abel

namespace ResilientDB.Library
open List

universe u

variable {ε : Type*} {α β : Type u}

theorem bind_eq_ok {x : Except ε α} {f : α → Except ε β} {b : β} :
    (x >>= f) = .ok b ↔ ∃ a, x = .ok a ∧ f a = .ok b := by
  cases x with
  | error e => simp [bind, Except.bind]
  | ok a => simp [bind, Except.bind]

theorem bind_eq_error {x : Except ε α} {f : α → Except ε β} {e : ε} :
    (x >>= f) = .error e ↔ x = .error e ∨ ∃ a, x = .ok a ∧ f a = .error e := by
  cases x with
  | error e => simp [bind, Except.bind]
  | ok a => simp [bind, Except.bind]

theorem map_eq_ok {x : Except ε α} {f : α → β} {b : β} : x.map f = .ok b ↔ ∃ a, x = .ok a ∧ f a = b := by
  cases x with
  | error e => simp [Except.map]
  | ok a => simp [Except.map]

theorem eq_ok_of_toOption {x : Except ε α} {a : α} (value : x.toOption = some a) : x = .ok a := by
  cases x with
  | error e => cases value
  | ok b =>
    cases value
    rfl

theorem eq_ok_of_guarded {condition : Prop} [Decidable condition] {x : Except ε α} {a : α}
    (value : (if condition then x.toOption else none) = some a) : condition ∧ x = .ok a := by
  split at value
  · rename_i holds
    exact ⟨holds, eq_ok_of_toOption value⟩
  · cases value

instance decidableExistsSome (o : Option α) (good : α → Prop) [DecidablePred good] :
    Decidable (∃ a, o = some a ∧ good a) :=
  match o with
  | some a => decidable_of_iff (good a) (by simp)
  | none => isFalse (by simp)

instance decidableEqError [DecidableEq ε] (x : Except ε α) (e : ε) : Decidable (x = .error e) :=
  match x with
  | .ok _ => isFalse nofun
  | .error other => decidable_of_iff (other = e) (by simp)

instance decidableEqOk [DecidableEq α] (x : Except ε α) (a : α) : Decidable (x = .ok a) :=
  match x with
  | .ok other => decidable_of_iff (other = a) (by simp)
  | .error _ => isFalse nofun

instance decidableForallSome (o : Option α) (good : α → Prop) [DecidablePred good] :
    Decidable (∀ a, o = some a → good a) :=
  match o with
  | some a => decidable_of_iff (good a) (by simp)
  | none => isTrue (by simp)

instance decidableExistsOkFst [DecidableEq β] (x : Except ε (α × β)) (b : β) : Decidable (∃ a, x = .ok (a, b)) :=
  match x with
  | .ok (_, other) => decidable_of_iff (other = b) (by simp)
  | .error _ => isFalse (by simp)

instance decidableExistsOk (x : Except ε α) (good : α → Prop) [DecidablePred good] :
    Decidable (∃ a, x = .ok a ∧ good a) :=
  match x with
  | .ok a => decidable_of_iff (good a) (by simp)
  | .error _ => isFalse (by simp)

/-- A loop keeps what each of its iterations keeps. -/
theorem foldlM_invariant {f : β → α → Except ε β} (inv : β → Prop) {xs : List α} {b b' : β}
    (run : xs.foldlM f b = .ok b') (start : inv b)
    (preserved : ∀ b a b', a ∈ xs → inv b → f b a = .ok b' → inv b') : inv b' := by
  induction xs generalizing b with
  | nil =>
    simp only [List.foldlM_nil, pure, Except.pure, Except.ok.injEq] at run
    exact run ▸ start
  | cons a xs ih =>
    rw [List.foldlM_cons, bind_eq_ok] at run
    obtain ⟨next, first, rest⟩ := run
    have kept := preserved b a next List.mem_cons_self start first
    exact ih rest kept fun c d c' member => preserved c d c' (List.mem_cons_of_mem a member)

theorem foldlM_eq_error_iff {f : β → α → Except ε β} {xs : List α} {b : β} {e : ε} : xs.foldlM f b = .error e ↔
    ∃ before a after c, xs = before ++ a :: after ∧ before.foldlM f b = .ok c ∧ f c a = .error e := by
  induction xs generalizing b with
  | nil => simp [pure, Except.pure]
  | cons x xs ih =>
    rw [List.foldlM_cons, bind_eq_error]
    constructor
    · rintro (here | ⟨next, first, rest⟩)
      · exact ⟨[], x, xs, b, rfl, rfl, here⟩
      · obtain ⟨before, a, after, c, rfl, ran, failed⟩ := ih.mp rest
        exact ⟨x :: before, a, after, c, rfl, bind_eq_ok.mpr ⟨next, first, ran⟩, failed⟩
    · rintro ⟨before, a, after, c, same, ran, failed⟩
      cases before with
      | nil =>
        cases same
        cases ran
        exact .inl failed
      | cons y before =>
        cases same
        obtain ⟨next, first, ran⟩ := bind_eq_ok.mp ran
        exact .inr ⟨next, first, ih.mpr ⟨before, a, after, c, rfl, ran, failed⟩⟩

theorem foldlM_eq_error {f : β → α → Except ε β} {fails : ε → Prop} {xs : List α} {b : β} {e : ε}
    (run : xs.foldlM f b = .error e) (each : ∀ b a e, a ∈ xs → f b a = .error e → fails e) : fails e := by
  obtain ⟨before, a, after, c, rfl, -, failed⟩ := foldlM_eq_error_iff.mp run
  exact each c a e (by simp) failed

variable {σ τ ρ σ' τ' ρ' : Type u} {α β γ ε : Type*}

def runCalls (call : σ → α → Except ε (σ × ρ)) : σ → List α → Except ε (σ × List ρ)
  | s, [] => .ok (s, [])
  | s, a :: rest => do
    let (after, result) ← call s a
    let (last, results) ← runCalls call after rest
    .ok (last, result :: results)

theorem runCalls_invariant {call : σ → α → Except ε (σ × ρ)} (inv : σ → Prop)
    (kept : ∀ s a s' result, inv s → call s a = .ok (s', result) → inv s') {calls : List α} {s s' : σ}
    {results : List ρ} (ran : runCalls call s calls = .ok (s', results)) (start : inv s) : inv s' := by
  induction calls generalizing s results with
  | nil =>
    cases ran
    exact start
  | cons a rest ih =>
    obtain ⟨⟨after, result⟩, called, ran⟩ := bind_eq_ok.mp ran
    obtain ⟨⟨last, results⟩, later, same⟩ := bind_eq_ok.mp ran
    cases same
    exact ih later (kept s a after result start called)

/-- The same result and related states, or the same error. -/
inductive Alike (R : ρ → σ → τ → Prop) : Except ε (σ × ρ) → Except ε (τ × ρ) → Prop
  | ok {s : σ} {t : τ} {result : ρ} : R result s t → Alike R (.ok (s, result)) (.ok (t, result))
  | error (e : ε) : Alike R (.error e) (.error e)

theorem Alike.bind {R : ρ → σ → τ → Prop} {S : ρ' → σ' → τ' → Prop} {x : Except ε (σ × ρ)} {y : Except ε (τ × ρ)}
    {f : σ × ρ → Except ε (σ' × ρ')} {g : τ × ρ → Except ε (τ' × ρ')} (alike : Alike R x y)
    (after : ∀ s t result, R result s t → Alike S (f (s, result)) (g (t, result))) : Alike S (x >>= f) (y >>= g) := by
  cases alike with
  | ok related => exact after _ _ _ related
  | error e => exact .error e

theorem Alike.of_ok {R : ρ → σ → τ → Prop} {x : Except ε (σ × ρ)} {y : Except ε (τ × ρ)} {s : σ} {result : ρ}
    (alike : Alike R x y) (value : x = .ok (s, result)) : ∃ t, y = .ok (t, result) ∧ R result s t := by
  cases alike with
  | ok related =>
    cases value
    exact ⟨_, rfl, related⟩
  | error e => cases value

theorem Alike.map_snd {R : ρ → σ → τ → Prop} {x : Except ε (σ × ρ)} {y : Except ε (τ × ρ)} (alike : Alike R x y) :
    x.map Prod.snd = y.map Prod.snd := by
  cases alike with
  | ok related => rfl
  | error e => rfl

/-- Objects whose calls are alike answer every list of calls alike. -/
theorem runCalls_alike {call : σ → α → Except ε (σ × ρ)} {call' : τ → β → Except ε (τ × ρ)} {arg : α → β}
    (R : γ → σ → τ → Prop) (next : γ → α → ρ → γ) {calls : List α}
    (alike : ∀ g s t a, a ∈ calls → R g s t → Alike (fun result => R (next g a result)) (call s a) (call' t (arg a)))
    {g : γ} {s : σ} {t : τ} (related : R g s t) :
    Alike (fun results => R ((calls.zip results).foldl (fun g p => next g p.1 p.2) g))
      (runCalls call s calls) (runCalls call' t (calls.map arg)) := by
  induction calls generalizing g s t with
  | nil => exact .ok related
  | cons a rest ih =>
    simp only [runCalls, List.map_cons]
    refine (alike g s t a List.mem_cons_self related).bind fun s t result related => ?_
    have later := ih (fun g s t b member => alike g s t b (List.mem_cons_of_mem a member)) related
    exact later.bind fun s t results related => .ok related

variable {α : Type*} {M : Type u} [AddCommGroup M] {ε : Type*}

theorem sum_map_set {l : List α} {i : Nat} {old : α} (found : l[i]? = some old) (new : α) (worth : α → M) :
    ((l.set i new).map worth).sum = (l.map worth).sum - worth old + worth new := by
  induction l generalizing i with
  | nil => cases found
  | cons a l ih =>
    cases i with
    | zero =>
      cases found
      simp only [set_cons_zero, map_cons, sum_cons]
      abel
    | succ i =>
      simp only [set_cons_succ, map_cons, sum_cons, ih (by simpa using found)]
      abel

theorem foldlM_eq_sum {check : M → Except ε M} (sound : ∀ n m, check n = .ok m → m = n) {α : Type u} {l : List α}
    {f : α → M} {start result : M} (ran : l.foldlM (fun total a => check (total + f a)) start = .ok result) :
    result = start + (l.map f).sum := by
  induction l generalizing start with
  | nil =>
    cases ran
    simp
  | cons a l ih =>
    rw [foldlM_cons, bind_eq_ok] at ran
    obtain ⟨next, first, rest⟩ := ran
    rw [ih rest, sound _ _ first, map_cons, sum_cons]
    abel

end ResilientDB.Library
