/-!
# Runs of a system

The states a system's events lead to, one event after another, each of
which meets a condition in the state it finds. What every event keeps
every run keeps (`Path.invariant`).
-/

namespace Lib

/-- The states the events that meet a condition lead to. -/
inductive Path {σ ε : Type} (apply : ε → σ → σ) (Meets : σ → ε → Prop) (start : σ) : σ → Prop
  | refl : Path apply Meets start start
  | tail {s : σ} {e : ε} : Path apply Meets start s → Meets s e →
      Path apply Meets start (apply e s)

namespace Path

variable {σ ε : Type} {apply : ε → σ → σ} {Meets Meets' : σ → ε → Prop} {s t u : σ}

theorem trans (h : Path apply Meets s t) (h' : Path apply Meets t u) : Path apply Meets s u := by
  induction h' with
  | refl => exact h
  | tail _ hmeets ih => exact ih.tail hmeets

/-- A weaker condition leads to as many states. -/
theorem mono (h : Path apply Meets s t) (hmono : ∀ s e, Meets s e → Meets' s e) :
    Path apply Meets' s t := by
  induction h with
  | refl => exact .refl
  | tail _ hmeets ih => exact ih.tail (hmono _ _ hmeets)

/-- Each of a list of events meets the condition in the state it finds. -/
def Along (apply : ε → σ → σ) (Meets : σ → ε → Prop) : List ε → σ → Prop
  | [], _ => True
  | e :: rest, s => Meets s e ∧ Along apply Meets rest (apply e s)

instance decidableAlong [∀ s e, Decidable (Meets s e)] :
    ∀ (es : List ε) (s : σ), Decidable (Along apply Meets es s)
  | [], _ => inferInstanceAs (Decidable True)
  | e :: rest, s => @instDecidableAnd _ _ _ (decidableAlong rest (apply e s))

/-- Events that meet the condition lead somewhere. -/
theorem of_along (es : List ε) (h : Along apply Meets es s) :
    Path apply Meets s (es.foldl (fun s e => apply e s) s) := by
  induction es generalizing s with
  | nil => exact .refl
  | cons e rest ih =>
    obtain ⟨hmeets, hrest⟩ := h
    exact (Path.refl.tail hmeets).trans (ih hrest)

/-- Events that meet the condition wherever they come lead somewhere. -/
theorem of_events (es : List ε) (h : ∀ e ∈ es, ∀ s, Meets s e) :
    Path apply Meets s (es.foldl (fun s e => apply e s) s) := by
  refine of_along es ?_
  induction es generalizing s with
  | nil => trivial
  | cons e rest ih =>
    exact ⟨h e List.mem_cons_self s, ih fun e' he' => h e' (List.mem_cons_of_mem _ he')⟩

/-- A property holds before, between and after a list of events. -/
def Throughout (apply : ε → σ → σ) (P : σ → Prop) : List ε → σ → Prop
  | [], s => P s
  | e :: rest, s => P s ∧ Throughout apply P rest (apply e s)

/-- **A property that an event keeps exactly where it meets a condition**
holds throughout exactly the runs whose events meet it. What the events keep
in any case may be used on the way. -/
theorem throughout_iff_along {Kept P : σ → Prop} {Fair : ε → Prop}
    (hkept : ∀ s e, Kept s → Fair e → Kept (apply e s))
    (hstep : ∀ s e, Kept s → P s → Fair e → (P (apply e s) ↔ Meets s e))
    (es : List ε) (hfair : ∀ e ∈ es, Fair e) (hs : Kept s) (hP : P s) :
    Throughout apply P es s ↔ Along apply Meets es s := by
  induction es generalizing s with
  | nil => exact iff_of_true hP True.intro
  | cons e rest ih =>
    have he := hfair e List.mem_cons_self
    have hrest : P (apply e s) → (Throughout apply P rest (apply e s) ↔
        Along apply Meets rest (apply e s)) :=
      ih (fun e' he' => hfair e' (List.mem_cons_of_mem _ he')) (hkept s e hs he)
    have hfirst : Throughout apply P rest (apply e s) → P (apply e s) := by
      cases rest with
      | nil => exact id
      | cons => exact And.left
    constructor
    · rintro ⟨-, hall⟩
      have hnext := hfirst hall
      exact ⟨(hstep s e hs hP he).1 hnext, (hrest hnext).1 hall⟩
    · rintro ⟨hmeets, hall⟩
      exact ⟨hP, (hrest ((hstep s e hs hP he).2 hmeets)).2 hall⟩

/-- **Events without effect may be left out of a run.** -/
theorem foldl_filter {P : σ → Prop} {F : ε → Prop} {p : ε → Bool}
    (hkept : ∀ s e, P s → F e → P (apply e s))
    (hidle : ∀ s e, P s → F e → p e = false → apply e s = s)
    (es : List ε) (hfair : ∀ e ∈ es, F e) (hs : P s) :
    es.foldl (fun s e => apply e s) s = (es.filter p).foldl (fun s e => apply e s) s := by
  induction es generalizing s with
  | nil => rfl
  | cons e rest ih =>
    have he := hfair e List.mem_cons_self
    have hrest := fun e' he' => hfair e' (List.mem_cons_of_mem _ he')
    rcases hp : p e with _ | _
    · rw [List.filter_cons_of_neg (by simp [hp]), List.foldl_cons, hidle s e hs he hp]
      exact ih hrest hs
    · rw [List.filter_cons_of_pos hp, List.foldl_cons, List.foldl_cons]
      exact ih hrest (hkept s e hs he)

/-- **Events may be replaced by ones that do the same.** -/
theorem foldl_replace {P : σ → Prop} {F : ε → Prop} {g : ε → ε}
    (hkept : ∀ s e, P s → F e → P (apply e s))
    (hsame : ∀ s e, P s → F e → apply (g e) s = apply e s)
    (es : List ε) (hfair : ∀ e ∈ es, F e) (hs : P s) :
    es.foldl (fun s e => apply e s) s = (es.map g).foldl (fun s e => apply e s) s := by
  induction es generalizing s with
  | nil => rfl
  | cons e rest ih =>
    have he := hfair e List.mem_cons_self
    rw [List.map_cons, List.foldl_cons, List.foldl_cons, hsame s e hs he]
    exact ih (fun e' he' => hfair e' (List.mem_cons_of_mem _ he')) (hkept s e hs he)

/-- **What every event keeps every run keeps.** -/
theorem invariant {P : σ → Prop} (h : Path apply Meets s t) (hs : P s)
    (hstep : ∀ s e, P s → Meets s e → P (apply e s)) : P t := by
  induction h with
  | refl => exact hs
  | tail _ hmeets ih => exact hstep _ _ ih hmeets

/-- **A system that follows another one's every event follows its runs.** -/
theorem follow {τ δ : Type} {f : δ → τ → τ} {F : τ → δ → Prop} {R : σ → τ → Prop} {a : τ}
    (h : Path apply Meets s t) (hs : R s a)
    (hstep : ∀ s e a, R s a → Meets s e → ∃ b, Path f F a b ∧ R (apply e s) b) :
    ∃ b, Path f F a b ∧ R t b := by
  induction h with
  | refl => exact ⟨a, .refl, hs⟩
  | tail _ hmeets ih =>
    obtain ⟨b, hb, hrel⟩ := ih
    obtain ⟨c, hc, hrel'⟩ := hstep _ _ b hrel hmeets
    exact ⟨c, hb.trans hc, hrel'⟩

end Path

end Lib
