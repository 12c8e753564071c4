import S3mp.Transition.Raising

/-!
# Playing a program to its end

A program played against a world which answers each request at once, and may do
anything else in answering, ends with a value and a world.  For programs which may
raise: what raises, in terms of the answers received on the way, and which turns of
a loop are reached.
-/

namespace Transition

variable {ρ σ ε α β : Type}

namespace Program

variable {Ans : ρ → Type} (answer : (r : ρ) → σ → Ans r × σ) (A : (r : ρ) → Ans r → Prop)

def play : Program Ans α → σ → α × σ
  | .done a, s => (a, s)
  | .request r next, s => (next (answer r s).1).play (answer r s).2

/-- The requests the program makes. -/
def trace : Program Ans α → σ → List ρ
  | .done _, _ => []
  | .request r next, s => r :: (next (answer r s).1).trace (answer r s).2

/-- Every answer the program receives on its way satisfies `A`. -/
def Along : Program Ans α → σ → Prop
  | .done _, _ => True
  | .request r next, s => A r (answer r s).1 ∧ (next (answer r s).1).Along (answer r s).2

variable {answer A}

theorem play_bind (p : Program Ans α) (k : α → Program Ans β) (s : σ) :
    (p >>= k).play answer s = (k (p.play answer s).1).play answer (p.play answer s).2 := by
  induction p generalizing s with
  | done a => rfl
  | request r next ih => exact ih _ _

theorem trace_bind (p : Program Ans α) (k : α → Program Ans β) (s : σ) :
    (p >>= k).trace answer s =
      p.trace answer s ++ (k (p.play answer s).1).trace answer (p.play answer s).2 := by
  induction p generalizing s with
  | done a => rfl
  | request r next ih => exact congrArg (r :: ·) (ih _ _)

theorem along_bind (p : Program Ans α) (k : α → Program Ans β) (s : σ) :
    (p >>= k).Along answer A s ↔
      p.Along answer A s ∧ (k (p.play answer s).1).Along answer A (p.play answer s).2 := by
  induction p generalizing s with
  | done a => exact (and_iff_right trivial).symm
  | request r next ih => exact (and_congr_right fun _ ↦ ih _ _).trans and_assoc.symm

variable {P : ρ → Prop}

/-- Requests which leave the world alone may be made without changing it. -/
theorem play_only (hP : ∀ r s, P r → (answer r s).2 = s) {p : Program Ans α} (hp : p.Only P)
    (s : σ) : (p.play answer s).2 = s := by
  induction p with
  | done a => rfl
  | request r next ih =>
      change ((next (answer r s).1).play answer (answer r s).2).2 = s
      rw [hP r s hp.1]
      exact ih _ (hp.2 _)

/-- Worlds which answer alike, and go on answering alike, make a program return the same. -/
theorem play_fst_congr {R : σ → σ → Prop}
    (hR : ∀ r s t, P r → R s t → (answer r s).1 = (answer r t).1 ∧ R (answer r s).2 (answer r t).2)
    {p : Program Ans α} (hp : p.Only P) {s t : σ} (hst : R s t) :
    (p.play answer s).1 = (p.play answer t).1 := by
  induction p generalizing s t with
  | done a => rfl
  | request r next ih =>
      obtain ⟨hsame, hnext⟩ := hR r s t hp.1 hst
      change ((next (answer r s).1).play answer (answer r s).2).1 =
        ((next (answer r t).1).play answer (answer r t).2).1
      rw [hsame]
      exact ih _ (hp.2 _) hnext

theorem mem_trace_of_only {p : Program Ans α} (hp : p.Only P) {s : σ} {r : ρ}
    (h : r ∈ p.trace answer s) : P r := by
  induction p generalizing s with
  | done a => cases h
  | request r' next ih =>
      rcases List.mem_cons.mp h with rfl | h
      · exact hp.1
      · exact ih _ (hp.2 _) h

end Program

/-! ## Programs which may raise -/

section Raising

variable {Val : ρ → Type} {answer : (r : ρ) → σ → Except ε (Val r) × σ}
  {A : (r : ρ) → Except ε (Val r) → Prop}

theorem play_bind_ok {x : Raising ε Val α} {k : α → Raising ε Val β} {s t : σ} {a : α}
    (h : x.run.play answer s = (.ok a, t)) :
    (x >>= k).run.play answer s = (k a).run.play answer t := by
  refine (Program.play_bind x.run (ExceptT.bindCont k) s).trans ?_
  rw [h]
  rfl

theorem play_bind_error {x : Raising ε Val α} {k : α → Raising ε Val β} {s t : σ} {e : ε}
    (h : x.run.play answer s = (.error e, t)) :
    (x >>= k).run.play answer s = (.error e, t) := by
  refine (Program.play_bind x.run (ExceptT.bindCont k) s).trans ?_
  rw [h]
  rfl

theorem along_bind_ok {x : Raising ε Val α} {k : α → Raising ε Val β} {s t : σ} {a : α}
    (h : x.run.play answer s = (.ok a, t)) :
    (x >>= k).run.Along answer A s ↔ x.run.Along answer A s ∧ (k a).run.Along answer A t := by
  refine (Program.along_bind x.run (ExceptT.bindCont k) s).trans ?_
  rw [h]
  exact Iff.rfl

theorem along_bind_error {x : Raising ε Val α} {k : α → Raising ε Val β} {s t : σ} {e : ε}
    (h : x.run.play answer s = (.error e, t)) :
    (x >>= k).run.Along answer A s ↔ x.run.Along answer A s := by
  refine (Program.along_bind x.run (ExceptT.bindCont k) s).trans ?_
  rw [h]
  exact and_iff_left trivial

theorem trace_bind_ok {x : Raising ε Val α} {k : α → Raising ε Val β} {s t : σ} {a : α}
    (h : x.run.play answer s = (.ok a, t)) :
    (x >>= k).run.trace answer s = x.run.trace answer s ++ (k a).run.trace answer t := by
  refine (Program.trace_bind x.run (ExceptT.bindCont k) s).trans ?_
  rw [h]
  rfl

theorem trace_bind_error {x : Raising ε Val α} {k : α → Raising ε Val β} {s t : σ} {e : ε}
    (h : x.run.play answer s = (.error e, t)) :
    (x >>= k).run.trace answer s = x.run.trace answer s := by
  refine (Program.trace_bind x.run (ExceptT.bindCont k) s).trans ?_
  rw [h]
  exact List.append_nil _

/-- A sequence which returns has gone on from what its first part returned. -/
theorem of_play_bind {x : Raising ε Val α} {k : α → Raising ε Val β} {s t : σ} {b : β}
    (h : (x >>= k).run.play answer s = (.ok b, t)) :
    ∃ a u, x.run.play answer s = (.ok a, u) ∧ (k a).run.play answer u = (.ok b, t) := by
  cases hplay : x.run.play answer s with
  | mk out u =>
      cases out with
      | ok a =>
          rw [play_bind_ok hplay] at h
          exact ⟨a, u, rfl, h⟩
      | error e =>
          rw [play_bind_error hplay] at h
          cases h

/-- Sequences which go on alike from whatever their first part returns. -/
theorem play_bind_congr {x : Raising ε Val α} {k k' : α → Raising ε Val β} {s : σ}
    (h : ∀ a t, x.run.play answer s = (.ok a, t) →
      (k a).run.play answer t = (k' a).run.play answer t) :
    (x >>= k).run.play answer s = (x >>= k').run.play answer s := by
  cases hplay : x.run.play answer s with
  | mk out t =>
      cases out with
      | ok a =>
          rw [play_bind_ok hplay, play_bind_ok hplay]
          exact h a t hplay
      | error e => rw [play_bind_error hplay, play_bind_error hplay]

/-- A sequence whose rest returns the same but for a change of the value. -/
theorem play_bind_map {γ : Type} {x : Raising ε Val α} {k : α → Raising ε Val β}
    {k' : α → Raising ε Val γ} {f : β → γ} {s : σ}
    (h : ∀ a t, (k' a).run.play answer t =
      (((k a).run.play answer t).1.map f, ((k a).run.play answer t).2)) :
    (x >>= k').run.play answer s =
      (((x >>= k).run.play answer s).1.map f, ((x >>= k).run.play answer s).2) := by
  cases hplay : x.run.play answer s with
  | mk out t =>
      cases out with
      | ok a =>
          rw [play_bind_ok hplay, play_bind_ok hplay]
          exact h a t
      | error e =>
          rw [play_bind_error hplay, play_bind_error hplay]
          rfl

/-- What is requested after a part which does not request it is requested by the rest. -/
theorem mem_trace_bind {x : Raising ε Val α} {k : α → Raising ε Val β} {s t : σ} {a : α} {r : ρ}
    (h : x.run.play answer s = (.ok a, t)) (hx : r ∉ x.run.trace answer s) :
    r ∈ (x >>= k).run.trace answer s ↔ r ∈ (k a).run.trace answer t := by
  rw [trace_bind_ok h, List.mem_append, or_iff_right hx]

theorem not_mem_trace_bind {x : Raising ε Val α} {k : α → Raising ε Val β} {s t : σ} {e : ε}
    {r : ρ} (h : x.run.play answer s = (.error e, t)) (hx : r ∉ x.run.trace answer s) :
    r ∉ (x >>= k).run.trace answer s := by
  rwa [trace_bind_error h]

/-- Playing `x` from `s` comes to `y` in `t`. -/
def Reaches (answer : (r : ρ) → σ → Except ε (Val r) × σ) (x : Raising ε Val α) (s : σ)
    (y : Raising ε Val α) (t : σ) : Prop :=
  x.run.play answer s = y.run.play answer t ∧ y.run.trace answer t ⊆ x.run.trace answer s

theorem Reaches.trans {x y z : Raising ε Val α} {s t u : σ} (h : Reaches answer x s y t)
    (h' : Reaches answer y t z u) : Reaches answer x s z u :=
  ⟨h.1.trans h'.1, List.Subset.trans h'.2 h.2⟩

theorem reaches_bind {x : Raising ε Val α} {k : α → Raising ε Val β} {s t : σ} {a : α}
    (h : x.run.play answer s = (.ok a, t)) : Reaches answer (x >>= k) s (k a) t := by
  refine ⟨play_bind_ok h, ?_⟩
  rw [trace_bind_ok h]
  exact List.subset_append_right _ _

theorem play_tryCatch_ok {x : Raising ε Val α} {handler : ε → Raising ε Val α} {s t : σ} {a : α}
    (h : x.run.play answer s = (.ok a, t)) :
    (tryCatch x handler).run.play answer s = (.ok a, t) := by
  refine (Program.play_bind x.run _ s).trans ?_
  rw [h]
  rfl

theorem play_tryCatch_error {x : Raising ε Val α} {handler : ε → Raising ε Val α} {s t : σ} {e : ε}
    (h : x.run.play answer s = (.error e, t)) :
    (tryCatch x handler).run.play answer s = (handler e).run.play answer t := by
  refine (Program.play_bind x.run _ s).trans ?_
  rw [h]
  rfl

/-- What a part returns or raises, as a value. -/
theorem play_attempt (x : Raising ε Val α) (s : σ) :
    (tryCatch (do return Except.ok (← x)) fun e ↦ return .error e :
        Raising ε Val (Except ε α)).run.play answer s =
      (.ok (x.run.play answer s).1, (x.run.play answer s).2) := by
  cases hplay : x.run.play answer s with
  | mk out t =>
      cases out with
      | ok a => exact play_tryCatch_ok (play_bind_ok hplay)
      | error e => exact play_tryCatch_error (play_bind_error hplay)

theorem along_tryCatch_ok {x : Raising ε Val α} {handler : ε → Raising ε Val α} {s t : σ} {a : α}
    (h : x.run.play answer s = (.ok a, t)) :
    (tryCatch x handler).run.Along answer A s ↔ x.run.Along answer A s := by
  refine (Program.along_bind x.run _ s).trans ?_
  rw [h]
  exact and_iff_left trivial

theorem along_tryCatch_error {x : Raising ε Val α} {handler : ε → Raising ε Val α} {s t : σ}
    {e : ε} (h : x.run.play answer s = (.error e, t)) :
    (tryCatch x handler).run.Along answer A s ↔
      x.run.Along answer A s ∧ (handler e).run.Along answer A t := by
  refine (Program.along_bind x.run _ s).trans ?_
  rw [h]
  exact Iff.rfl

/-! ## Which answers make a program raise -/

variable {P : ε → Prop}

/-- The program raises an error of the kind `P` exactly when it receives an answer outside `A`. -/
def Exact (answer : (r : ρ) → σ → Except ε (Val r) × σ) (A : (r : ρ) → Except ε (Val r) → Prop)
    (P : ε → Prop) (x : Raising ε Val α) : Prop :=
  ∀ s, (∀ e t, x.run.play answer s = (.error e, t) → ¬ P e) ↔ x.run.Along answer A s

theorem exact_pure (a : α) : Exact answer A P (pure a : Raising ε Val α) :=
  fun _ ↦ iff_of_true (fun _ _ h ↦ by cases h) trivial

theorem exact_throw {e : ε} (h : ¬ P e) : Exact answer A P (throw e : Raising ε Val α) := by
  refine fun s ↦ iff_of_true (fun e' t heq ↦ ?_) trivial
  cases heq
  exact h

theorem exact_bind {x : Raising ε Val α} {k : α → Raising ε Val β} (hx : Exact answer A P x)
    (hk : ∀ a, Exact answer A P (k a)) : Exact answer A P (x >>= k) := by
  intro s
  cases hplay : x.run.play answer s with
  | mk out t =>
      have hthis := hx s
      rw [hplay] at hthis
      cases out with
      | ok a =>
          rw [play_bind_ok hplay, along_bind_ok hplay, ← hthis, hk a t]
          exact (and_iff_right fun _ _ h ↦ by cases h).symm
      | error e =>
          rw [play_bind_error hplay, along_bind_error hplay, ← hthis]
          constructor
          · intro h e' t' heq
            cases heq
            exact h e t rfl
          · intro h e' t' heq
            cases heq
            exact h e t rfl

/-- A request whose errors are of the kind `P` exactly when they are outside `A`.  Values
outside `A` make the program go on to such an error. -/
theorem exact_call_bind {r : ρ} {k : Val r → Raising ε Val β}
    (herror : ∀ e, A r (.error e) ↔ ¬ P e) (hk : ∀ a, A r (.ok a) → Exact answer A P (k a))
    (hraise : ∀ a, ¬ A r (.ok a) → ∃ e, P e ∧ k a = throw e) :
    Exact answer A P (call r >>= k) := by
  intro s
  have hcall : (call r : Raising ε Val (Val r)).run.play answer s = answer r s := rfl
  have halong : (call r : Raising ε Val (Val r)).run.Along answer A s ↔ A r (answer r s).1 :=
    and_iff_left trivial
  cases hanswer : answer r s with
  | mk out t =>
      rw [hanswer] at hcall halong
      cases out with
      | ok a =>
          rw [play_bind_ok hcall, along_bind_ok hcall, halong]
          by_cases ha : A r (.ok a)
          · rw [hk a ha t]
            exact (and_iff_right ha).symm
          · obtain ⟨e, he, hthrow⟩ := hraise a ha
            refine iff_of_false (fun hnone ↦ ?_) fun h ↦ ha h.1
            rw [hthrow] at hnone
            exact hnone e t rfl he
      | error e =>
          rw [play_bind_error hcall, along_bind_error hcall, halong, herror]
          refine ⟨fun h ↦ h e t rfl, fun h e' t' heq ↦ ?_⟩
          cases heq
          exact h

theorem exact_call {r : ρ} (herror : ∀ e, A r (.error e) ↔ ¬ P e) (hok : ∀ a, A r (.ok a)) :
    Exact answer A P (call r : Raising ε Val (Val r)) := by
  intro s
  change (∀ e t, answer r s = (.error e, t) → ¬ P e) ↔ A r (answer r s).1 ∧ True
  rw [and_true]
  cases answer r s with
  | mk out t =>
      cases out with
      | ok a => exact iff_of_true (fun _ _ h ↦ by cases h) (hok a)
      | error e =>
          rw [herror]
          refine ⟨fun h ↦ h e t rfl, fun h e' t' heq ↦ ?_⟩
          cases heq
          exact h

end Raising

/-! ## Loops -/

section Loop

variable {Val : ρ → Type} (answer : (r : ρ) → σ → Except ε (Val r) × σ)
  (turn : α → Raising ε Val (Option β))

/-- A loop over the elements which collects what its turns find. -/
def forEach : List α → Raising ε Val (List β)
  | [] => pure []
  | a :: as => do
      let found ← turn a
      let rest ← forEach as
      return found.toList ++ rest

/-- The world one turn leaves, whether it ends or raises. -/
def afterTurn (s : σ) (a : α) : σ :=
  ((turn a).run.play answer s).2

/-- The world some turns leave, one after the other. -/
def afterTurns (s : σ) (as : List α) : σ :=
  as.foldl (afterTurn answer turn) s

/-- The turn does not raise. -/
def Ends (s : σ) (a : α) : Prop :=
  ∀ e t, (turn a).run.play answer s ≠ (.error e, t)

/-- The elements for which a turn of the loop begins. -/
def visited : List α → σ → List α
  | [], _ => []
  | a :: as, s =>
    match (turn a).run.play answer s with
    | (.ok _, t) => a :: visited as t
    | (.error _, _) => [a]

/-- The requests of some turns, one after the other. -/
def turnRequests : List α → σ → List ρ
  | [], _ => []
  | a :: as, s => (turn a).run.trace answer s ++ turnRequests as (afterTurn answer turn s a)

variable {answer turn} {a : α} {as : List α} {s t : σ}

theorem visited_of_ok {x : Option β} (h : (turn a).run.play answer s = (.ok x, t)) :
    visited answer turn (a :: as) s = a :: visited answer turn as t := by
  rw [visited, h]

theorem visited_of_error {e : ε} (h : (turn a).run.play answer s = (.error e, t)) :
    visited answer turn (a :: as) s = [a] := by
  rw [visited, h]

theorem afterTurn_eq {out : Except ε (Option β)} (h : (turn a).run.play answer s = (out, t)) :
    afterTurn answer turn s a = t :=
  congrArg Prod.snd h

theorem afterTurns_cons :
    afterTurns answer turn s (a :: as) = afterTurns answer turn (afterTurn answer turn s a) as :=
  rfl

theorem play_forEach_cons {x : Option β} (h : (turn a).run.play answer s = (.ok x, t)) :
    ((forEach turn (a :: as)).run.play answer s).2 = ((forEach turn as).run.play answer t).2 := by
  rw [forEach, play_bind_ok h]
  cases hrest : (forEach turn as).run.play answer t with
  | mk out u =>
      cases out with
      | ok xs => rw [play_bind_ok hrest]; rfl
      | error e => rw [play_bind_error hrest]

/-- The loop leaves the world its visited turns leave: none of them is undone. -/
theorem play_forEach (as : List α) (s : σ) : ((forEach turn as).run.play answer s).2 =
    afterTurns answer turn s (visited answer turn as s) := by
  induction as generalizing s with
  | nil => rfl
  | cons a as ih =>
      cases hplay : (turn a).run.play answer s with
      | mk out t =>
          cases out with
          | ok x =>
              rw [play_forEach_cons hplay, visited_of_ok hplay, afterTurns_cons,
                afterTurn_eq hplay, ih]
          | error e =>
              rw [forEach, play_bind_error hplay, visited_of_error hplay]
              exact (afterTurn_eq hplay).symm

/-- The loop makes the requests of its visited turns. -/
theorem trace_forEach (as : List α) (s : σ) : (forEach turn as).run.trace answer s =
    turnRequests answer turn (visited answer turn as s) s := by
  induction as generalizing s with
  | nil => rfl
  | cons a as ih =>
      cases hplay : (turn a).run.play answer s with
      | mk out t =>
          cases out with
          | ok x =>
              have hrest : (forEach turn as >>= fun rest ↦
                  (pure (x.toList ++ rest) : Raising ε Val (List β))).run.trace answer t =
                    (forEach turn as).run.trace answer t := by
                cases hout : (forEach turn as).run.play answer t with
                | mk out u =>
                    cases out with
                    | ok xs =>
                        rw [trace_bind_ok hout]
                        exact List.append_nil _
                    | error e => exact trace_bind_error hout
              rw [forEach, trace_bind_ok hplay, hrest, visited_of_ok hplay, turnRequests,
                afterTurn_eq hplay, ih]
          | error e =>
              rw [forEach, trace_bind_error hplay, visited_of_error hplay]
              exact (List.append_nil _).symm

/-- The loop visits every element exactly when every turn before the last ends. -/
theorem visited_eq_iff (as : List α) (s : σ) : visited answer turn as s = as ↔
    ∀ pre a b post, as = pre ++ a :: b :: post →
      Ends answer turn (afterTurns answer turn s pre) a := by
  induction as generalizing s with
  | nil =>
      refine iff_of_true rfl fun pre a b post hsplit ↦ ?_
      exact absurd hsplit.symm (List.append_ne_nil_of_right_ne_nil pre (List.cons_ne_nil a _))
  | cons a as ih =>
      cases hplay : (turn a).run.play answer s with
      | mk out t =>
          cases out with
          | ok x =>
              rw [visited_of_ok hplay, List.cons.injEq, and_iff_right rfl, ih]
              constructor
              · intro h pre c d post hsplit
                cases pre with
                | nil =>
                    obtain ⟨rfl, -⟩ := List.cons.inj hsplit
                    intro e u heq
                    cases hplay.symm.trans heq
                | cons p pre =>
                    obtain ⟨rfl, htail⟩ := List.cons.inj hsplit
                    rw [afterTurns_cons, afterTurn_eq hplay]
                    exact h pre c d post htail
              · intro h pre c d post hsplit
                have hthis := h (a :: pre) c d post (by rw [hsplit, List.cons_append])
                rwa [afterTurns_cons, afterTurn_eq hplay] at hthis
          | error e =>
              rw [visited_of_error hplay]
              constructor
              · intro hlast pre c d post hsplit
                obtain rfl := (List.cons.inj hlast).2
                cases pre with
                | nil => cases (List.cons.inj hsplit).2
                | cons p pre =>
                    have hnil := (List.cons.inj hsplit).2
                    exact absurd hnil.symm
                      (List.append_ne_nil_of_right_ne_nil pre (List.cons_ne_nil c _))
              · intro h
                cases as with
                | nil => rfl
                | cons b post => exact absurd hplay (h [] a b post rfl e t)

end Loop

end Transition
