import Mathlib.Logic.Basic

/-!
# Runs of a transactional command system

A command either commits a new state or is rejected and leaves the state as it
was.  Everything nondeterministic (fresh identifiers, clock readings, answers of
other systems) is an argument of the command, so that a run is a list of
commands.  A run `Meets` a condition when each of its commands meets it in the
state in which it is executed.
-/

namespace Transition

variable {σ κ ε : Type}

/-- The state after one command: a rejected command rolls back. -/
def advance (exec : κ → σ → Except ε σ) (s : σ) (c : κ) : σ :=
  match exec c s with
  | .ok s' => s'
  | .error _ => s

def run (exec : κ → σ → Except ε σ) (s : σ) (cs : List κ) : σ :=
  cs.foldl (advance exec) s

/-- Every command of the run meets `cond` in the state it is executed in. -/
def Meets (exec : κ → σ → Except ε σ) (cond : σ → κ → Prop) : σ → List κ → Prop
  | _, [] => True
  | s, c :: cs => cond s c ∧ Meets exec cond (advance exec s c) cs

instance (exec : κ → σ → Except ε σ) (cond : σ → κ → Prop) [∀ s c, Decidable (cond s c)] :
    ∀ s cs, Decidable (Meets exec cond s cs)
  | _, [] => inferInstanceAs (Decidable True)
  | s, c :: cs =>
      have := instDecidableMeets exec cond (advance exec s c) cs
      inferInstanceAs (Decidable (_ ∧ _))

theorem advance_of_ok {exec : κ → σ → Except ε σ} {s s' : σ} {c : κ}
    (h : exec c s = .ok s') : advance exec s c = s' := by
  simp [advance, h]

theorem advance_of_error {exec : κ → σ → Except ε σ} {s : σ} {c : κ} {e : ε}
    (h : exec c s = .error e) : advance exec s c = s := by
  simp [advance, h]

theorem advance_preserves {exec : κ → σ → Except ε σ} {I : σ → Prop} {s : σ} {c : κ}
    (hs : I s) (h : ∀ s', exec c s = .ok s' → I s') : I (advance exec s c) := by
  cases hexec : exec c s with
  | ok s' => simpa [advance, hexec] using h s' hexec
  | error e => simpa [advance, hexec] using hs

section

variable (exec : κ → σ → Except ε σ)

@[simp] theorem run_nil (s : σ) : run exec s [] = s := rfl

@[simp] theorem run_cons (s : σ) (c : κ) (cs : List κ) :
    run exec s (c :: cs) = run exec (advance exec s c) cs := rfl

theorem run_append (s : σ) (cs ds : List κ) :
    run exec s (cs ++ ds) = run exec (run exec s cs) ds := by
  simp [run]

theorem meets_append {cond : σ → κ → Prop} {s : σ} {cs ds : List κ} :
    Meets exec cond s (cs ++ ds) ↔
      Meets exec cond s cs ∧ Meets exec cond (run exec s cs) ds := by
  induction cs generalizing s with
  | nil => simp [Meets]
  | cons c cs ih => simp [Meets, ih, and_assoc]

end

/-- Run rule: an invariant preserved by every committed command that meets the
condition holds after every run that meets it. -/
theorem run_invariant {exec : κ → σ → Except ε σ} {cond : σ → κ → Prop} {I : σ → Prop}
    (hstep : ∀ s c s', I s → cond s c → exec c s = .ok s' → I s') {s : σ} {cs : List κ}
    (hs : I s) (hmeets : Meets exec cond s cs) : I (run exec s cs) := by
  induction cs generalizing s with
  | nil => exact hs
  | cons c cs ih =>
      obtain ⟨hc, hrest⟩ := hmeets
      exact ih (advance_preserves hs fun s' hok ↦ hstep s c s' hs hc hok) hrest

/-- A condition on the commands alone. -/
theorem meets_of_forall {exec : κ → σ → Except ε σ} {V : κ → Prop} {s : σ} {cs : List κ}
    (hvalid : ∀ c ∈ cs, V c) : Meets exec (fun _ c ↦ V c) s cs := by
  induction cs generalizing s with
  | nil => trivial
  | cons c cs ih =>
      exact ⟨hvalid c List.mem_cons_self, ih fun d hd ↦ hvalid d (List.mem_cons_of_mem c hd)⟩

theorem Meets.and_valid {exec : κ → σ → Except ε σ} {cond : σ → κ → Prop} {V : κ → Prop} {s : σ}
    {cs : List κ} (h : Meets exec cond s cs) (hvalid : ∀ c ∈ cs, V c) :
    Meets exec (fun s c ↦ V c ∧ cond s c) s cs := by
  induction cs generalizing s with
  | nil => trivial
  | cons c cs ih =>
      obtain ⟨hc, hrest⟩ := h
      exact ⟨⟨hvalid c List.mem_cons_self, hc⟩,
        ih hrest fun d hd ↦ hvalid d (List.mem_cons_of_mem c hd)⟩

/-- Run rule for every state on the way. -/
theorem run_invariant_prefix {exec : κ → σ → Except ε σ} {cond : σ → κ → Prop} {I : σ → Prop}
    {V : κ → Prop} (hstep : ∀ s c s', I s → V c → cond s c → exec c s = .ok s' → I s') {s : σ}
    {cs : List κ} (hs : I s) (hvalid : ∀ c ∈ cs, V c) (hmeets : Meets exec cond s cs)
    (pre post : List κ) (hsplit : cs = pre ++ post) : I (run exec s pre) := by
  have hpre := (meets_append exec).mp (hsplit ▸ hmeets.and_valid hvalid)
  exact run_invariant (fun s c s' hI hc hok ↦ hstep s c s' hI hc.1 hc.2 hok) hs hpre.1

/-- An invariant `I` holds in every state of a run exactly when it holds at the start and every
command meets the condition which decides whether it is kept.  The side invariant `W` holds as
long as the commands are valid. -/
theorem run_invariant_iff {exec : κ → σ → Except ε σ} {cond : σ → κ → Prop} {I W : σ → Prop}
    {V : κ → Prop} (hside : ∀ s c, W s → V c → W (advance exec s c))
    (hkeeps : ∀ s c, W s → V c → I s → (cond s c ↔ I (advance exec s c))) {s : σ} {cs : List κ}
    (hs : W s) (hvalid : ∀ c ∈ cs, V c) :
    (∀ pre post, cs = pre ++ post → I (run exec s pre)) ↔ I s ∧ Meets exec cond s cs := by
  induction cs generalizing s with
  | nil =>
      constructor
      · intro h
        exact ⟨h [] [] rfl, trivial⟩
      · rintro ⟨hI, -⟩ pre post hsplit
        obtain ⟨rfl, rfl⟩ := List.append_eq_nil_iff.mp hsplit.symm
        exact hI
  | cons c cs ih =>
      have hc := hvalid c List.mem_cons_self
      have ih := ih (hside s c hs hc) fun d hd ↦ hvalid d (List.mem_cons_of_mem c hd)
      constructor
      · intro h
        have hI : I s := h [] (c :: cs) rfl
        have hrest := ih.mp fun pre post hsplit ↦ h (c :: pre) post (by rw [hsplit, List.cons_append])
        exact ⟨hI, (hkeeps s c hs hc hI).mpr hrest.1, hrest.2⟩
      · rintro ⟨hI, hcond, hrest⟩ pre post hsplit
        cases pre with
        | nil => exact hI
        | cons d pre =>
            obtain ⟨rfl, htail⟩ := List.cons.inj hsplit
            exact ih.mpr ⟨(hkeeps s c hs hc hI).mp hcond, hrest⟩ pre post htail

/-- A property of single commands holds of every command of a run exactly when each meets the
condition which decides it.  The side invariant `W` holds throughout. -/
theorem run_commands_iff {exec : κ → σ → Except ε σ} {cond : σ → κ → Prop} {W : σ → Prop}
    {P : σ → κ → σ → Prop} (hside : ∀ s c, W s → W (advance exec s c))
    (hdecides : ∀ s c, W s → (cond s c ↔ P s c (advance exec s c))) {s : σ} {cs : List κ}
    (hs : W s) :
    (∀ pre c post, cs = pre ++ c :: post → P (run exec s pre) c (run exec s (pre ++ [c]))) ↔
      Meets exec cond s cs := by
  induction cs generalizing s with
  | nil =>
      constructor
      · exact fun _ ↦ trivial
      · intro _ pre c post hsplit
        exact absurd hsplit.symm (List.append_ne_nil_of_right_ne_nil pre (List.cons_ne_nil c post))
  | cons c cs ih =>
      have ih := ih (hside s c hs)
      constructor
      · intro h
        refine ⟨(hdecides s c hs).mpr (h [] c cs rfl), ih.mp fun pre d post hsplit ↦ ?_⟩
        exact h (c :: pre) d post (by rw [hsplit, List.cons_append])
      · rintro ⟨hcond, hrest⟩ pre d post hsplit
        cases pre with
        | nil =>
            obtain ⟨rfl, rfl⟩ := List.cons.inj hsplit
            exact (hdecides s c hs).mp hcond
        | cons e pre =>
            obtain ⟨rfl, htail⟩ := List.cons.inj hsplit
            exact ih.mpr hrest pre d post htail

theorem run_preserves {exec : κ → σ → Except ε σ} {I : σ → Prop}
    (hstep : ∀ s c s', I s → exec c s = .ok s' → I s') {s : σ} (hs : I s) (cs : List κ) :
    I (run exec s cs) := by
  induction cs generalizing s with
  | nil => exact hs
  | cons c cs ih => exact ih (advance_preserves hs fun s' hok ↦ hstep s c s' hs hok)

/-! ## Commands on a part of the state -/

section Lift

variable {κ' σ' : Type} {exec : κ → σ → Except ε σ} {exec' : κ' → σ' → Except ε σ'}
  (lift : κ' → κ) (put : σ' → σ)

theorem advance_lift (h : ∀ c x, exec (lift c) (put x) = (exec' c x).map put) (x : σ') (c : κ') :
    advance exec (put x) (lift c) = put (advance exec' x c) := by
  unfold advance
  rw [h]
  cases exec' c x <;> rfl

/-- Commands which act inside a part of the state run there. -/
theorem run_lift (h : ∀ c x, exec (lift c) (put x) = (exec' c x).map put) (x : σ') (cs : List κ') :
    run exec (put x) (cs.map lift) = put (run exec' x cs) := by
  induction cs generalizing x with
  | nil => rfl
  | cons c cs ih => rw [List.map_cons, run_cons, advance_lift lift put h, ih, run_cons]

theorem meets_lift (h : ∀ c x, exec (lift c) (put x) = (exec' c x).map put)
    {cond : σ → κ → Prop} {cond' : σ' → κ' → Prop}
    (hcond : ∀ x c, cond (put x) (lift c) ↔ cond' x c) {x : σ'} {cs : List κ'} :
    Meets exec cond (put x) (cs.map lift) ↔ Meets exec' cond' x cs := by
  induction cs generalizing x with
  | nil => exact Iff.rfl
  | cons c cs ih => rw [List.map_cons, Meets, Meets, hcond, advance_lift lift put h, ih]

end Lift
end Transition
