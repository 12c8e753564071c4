import Mathlib.Data.List.Basic
import Mathlib.Data.List.Induction
import Mathlib.Data.Nat.Notation

/-!
# Sliding windows

An arrival is granted while fewer than `limit` of the recorded ones are `near` it.  A
limiter may record every arrival or only the granted ones: with either no window ever
holds more than `limit` granted arrivals.  The two give the same answers exactly as long
as no arrival of a full window helps to fill a later one.
-/

namespace SlidingWindow

variable {α κ σ : Type*}

section

variable (near : α → α → Bool) (limit : ℕ)

/-- The arrivals of the history that count against `a`. -/
def weight (h : List α) (a : α) : ℕ := h.countP (near a)

def grants (h : List α) (a : α) : Bool := decide (weight near h a < limit)

/-- The history after the arrival has been answered. -/
def record (keep : Bool → Bool) (h : List α) (a : α) : List α :=
  if keep (grants near limit h a) then h ++ [a] else h

/-- The arrivals with the answer to each. -/
def decisions (keep : Bool → Bool) : List α → List α → List (α × Bool)
  | _, [] => []
  | h, a :: as =>
      (a, grants near limit h a) :: decisions keep (record near limit keep h a) as

end

/-- The arrivals of a log with the given answers. -/
def kept (keep : Bool → Bool) (log : List (α × Bool)) : List α :=
  (log.filter fun e ↦ keep e.2).map Prod.fst

section

variable {near : α → α → Bool} {limit : ℕ} {keep : Bool → Bool} {a : α} {h as bs : List α}

@[simp] theorem weight_nil (a : α) : weight near [] a = 0 := rfl

@[simp] theorem weight_append (h as : List α) (a : α) :
    weight near (h ++ as) a = weight near h a + weight near as a :=
  List.countP_append

@[simp] theorem weight_singleton (a b : α) :
    weight near [b] a = if near a b then 1 else 0 := by
  simp [weight, List.countP_singleton]

theorem weight_le (hsub : List.Sublist as bs) (a : α) :
    weight near as a ≤ weight near bs a :=
  hsub.countP_le

theorem grants_iff : grants near limit h a = true ↔ weight near h a < limit :=
  decide_eq_true_iff

theorem grants_false : grants near limit h a = false ↔ limit ≤ weight near h a := by
  rw [grants, decide_eq_false_iff_not, Nat.not_lt]

@[simp] theorem kept_nil : kept keep ([] : List (α × Bool)) = [] := rfl

@[simp] theorem kept_append (l m : List (α × Bool)) :
    kept keep (l ++ m) = kept keep l ++ kept keep m := by
  simp [kept]

@[simp] theorem kept_singleton (a : α) (ok : Bool) :
    kept keep [(a, ok)] = if keep ok then [a] else [] := by
  cases hok : keep ok <;> simp [kept, hok]

theorem kept_cons (e : α × Bool) (log : List (α × Bool)) :
    kept keep (e :: log) = kept keep [e] ++ kept keep log :=
  kept_append [e] log

theorem record_eq (h : List α) (a : α) :
    record near limit keep h a = h ++ kept keep [(a, grants near limit h a)] := by
  unfold record
  rw [kept_singleton]
  split
  · rfl
  · exact (List.append_nil h).symm

theorem decisions_fst (h as : List α) :
    (decisions near limit keep h as).map Prod.fst = as := by
  induction as generalizing h with
  | nil => rfl
  | cons a as ih => rw [decisions, List.map_cons, ih]

theorem decisions_append (h as bs : List α) :
    decisions near limit keep h (as ++ bs) = decisions near limit keep h as ++
      decisions near limit keep (h ++ kept keep (decisions near limit keep h as)) bs := by
  induction as generalizing h with
  | nil => simp [decisions]
  | cons a as ih =>
      rw [List.cons_append, decisions, ih, decisions, List.cons_append,
        kept_cons (a, grants near limit h a), record_eq, List.append_assoc]

/-- The answer to the last arrival, from what the ones before it have left. -/
theorem decisions_snoc (as : List α) (a : α) :
    decisions near limit keep [] (as ++ [a]) = decisions near limit keep [] as ++
      [(a, grants near limit (kept keep (decisions near limit keep [] as)) a)] := by
  rw [decisions_append, List.nil_append]
  rfl

/-- Every answer of the log is the one its own history gives. -/
theorem answer_of_split {before after : List (α × Bool)} {ok : Bool}
    (hlog : decisions near limit keep [] as = before ++ (a, ok) :: after) :
    ok = grants near limit (kept keep before) a := by
  have hfst : as = before.map Prod.fst ++ a :: after.map Prod.fst := by
    have hmap := congrArg (List.map Prod.fst) hlog
    rwa [decisions_fst, List.map_append, List.map_cons] at hmap
  rw [hfst, decisions_append, List.nil_append] at hlog
  have hparts := List.append_inj hlog (by
    rw [← List.length_map Prod.fst, decisions_fst, List.length_map])
  rw [hparts.1, decisions] at hparts
  exact (congrArg Prod.snd (List.cons.inj hparts.2).1).symm

end

/-! ## The law of one limiter -/

/-- The granted arrivals. -/
def granted (log : List (α × Bool)) : List α := kept id log

section

variable {near : α → α → Bool} {limit : ℕ} {keep : Bool → Bool} {a : α} {h as bs : List α}

theorem granted_sublist_kept (hkeep : keep true = true) (log : List (α × Bool)) :
    List.Sublist (granted log) (kept keep log) := by
  apply List.Sublist.map
  apply List.monotone_filter_right
  rintro ⟨a, ok⟩ hok
  rw [show ok = true from hok]
  exact hkeep

/-- A set of arrivals any two of which count against each other holds at most `limit`
granted ones. -/
theorem granted_le (hkeep : keep true = true) {W : α → Bool}
    (hW : ∀ a e, W a = true → W e = true → near a e = true) (as : List α) :
    (granted (decisions near limit keep [] as)).countP W ≤ limit := by
  induction as using List.reverseRecOn with
  | nil => exact Nat.zero_le _
  | append_singleton as a ih =>
      rw [decisions_snoc]
      unfold granted at ih ⊢
      rw [kept_append, kept_singleton, List.countP_append]
      cases hok : grants near limit (kept keep (decisions near limit keep [] as)) a with
      | false => exact ih
      | true =>
          cases ha : W a with
          | false => simpa [ha] using ih
          | true =>
              have hin : (kept id (decisions near limit keep [] as)).countP W ≤
                  weight near (kept keep (decisions near limit keep [] as)) a :=
                Nat.le_trans (List.countP_mono_left fun e _ he ↦ hW a e ha he)
                  (granted_sublist_kept hkeep _).countP_le
              have hlt := grants_iff.mp hok
              simp only [id, if_true, List.countP_singleton, ha]
              omega

/-- A limiter that records the granted arrivals alone refuses one only when `limit` of
them are near it. -/
theorem refused_full {before after : List (α × Bool)}
    (hlog : decisions near limit id [] as = before ++ (a, false) :: after) :
    limit ≤ (granted before).countP (near a) :=
  grants_false.mp (answer_of_split hlog).symm

/-- Arrivals that only those of their own key are near to are answered as if the others
had not come. -/
theorem decisions_filter (q : α → Bool) (hq : ∀ a e, near a e = true → q e = q a) :
    ∀ h as, (decisions near limit keep h as).filter (fun e ↦ q e.1) =
      decisions near limit keep (h.filter q) (as.filter q)
  | _, [] => rfl
  | h, a :: as => by
      have ih := decisions_filter q hq (record near limit keep h a) as
      rw [decisions, List.filter_cons, List.filter_cons, ih]
      cases ha : q a with
      | true =>
          have hweight : weight near (h.filter q) a = weight near h a := by
            unfold weight
            rw [List.countP_filter]
            refine List.countP_congr fun e _ ↦ ?_
            rw [Bool.and_eq_true]
            exact ⟨And.left, fun he ↦ ⟨he, (hq a e he).trans ha⟩⟩
          have hgrants : grants near limit (h.filter q) a = grants near limit h a := by
            rw [grants, hweight, grants]
          rw [if_pos rfl, if_pos rfl, decisions, hgrants, record_eq, record_eq, hgrants,
            List.filter_append]
          by_cases hk : keep (grants near limit h a) = true <;> simp [ha, hk]
      | false =>
          rw [if_neg Bool.false_ne_true, if_neg Bool.false_ne_true, record_eq,
            List.filter_append, kept_singleton]
          by_cases hk : keep (grants near limit h a) = true <;> simp [ha, hk]

end

/-! ## Two ways to record -/

section

variable (near : α → α → Bool) (limit : ℕ)

/-- No arrival that finds `limit` others near it makes up the number for a later one that
it is near to. -/
def Undisturbed (as : List α) : Prop :=
  ∀ u j v i x, as = u ++ j :: v ++ i :: x → near i j = true → limit ≤ weight near u j →
    limit ≤ weight near (u ++ j :: v) i → limit ≤ weight near u i

/-- The arrivals before `i` leave it as it is. -/
def UndisturbedAt (as : List α) (i : α) : Prop :=
  ∀ u j v, as = u ++ j :: v → near i j = true → limit ≤ weight near u j →
    limit ≤ weight near as i → limit ≤ weight near u i

variable {near limit} {as : List α}

theorem undisturbed_nil : Undisturbed near limit [] := by
  intro u j v i x h
  simp at h

theorem undisturbed_snoc {i : α} : Undisturbed near limit (as ++ [i]) ↔
    Undisturbed near limit as ∧ UndisturbedAt near limit as i := by
  constructor
  · intro h
    refine ⟨fun u j v k x has ↦ h u j v k (x ++ [i]) (by rw [has]; simp), ?_⟩
    rintro u j v rfl
    exact h u j v i [] rfl
  · rintro ⟨hpast, hlast⟩ u j v k x has
    rcases List.eq_nil_or_concat x with rfl | ⟨y, z, rfl⟩
    · obtain ⟨rfl, hk⟩ := List.append_inj' has rfl
      cases hk
      exact hlast u j v rfl
    · apply hpast u j v k y
      rw [List.concat_eq_append, ← List.cons_append, ← List.append_assoc] at has
      exact (List.append_inj' has rfl).1

/-- A limiter that records every arrival has them all in its history. -/
theorem kept_all (log : List (α × Bool)) : kept (fun _ ↦ true) log = log.map Prod.fst := by
  rw [kept, List.filter_eq_self.mpr fun _ _ ↦ rfl]

theorem decisions_all_snoc (as : List α) (a : α) :
    decisions near limit (fun _ ↦ true) [] (as ++ [a]) =
      decisions near limit (fun _ ↦ true) [] as ++ [(a, grants near limit as a)] := by
  rw [decisions_snoc, kept_all, decisions_fst]

/-- The arrivals that find fewer than `limit` of all the earlier ones near them. -/
def calm (near : α → α → Bool) (limit : ℕ) (as : List α) : List α :=
  granted (decisions near limit (fun _ ↦ true) [] as)

@[simp] theorem calm_nil : calm near limit [] = [] := rfl

theorem calm_snoc (as : List α) (a : α) : calm near limit (as ++ [a]) =
    calm near limit as ++ if weight near as a < limit then [a] else [] := by
  unfold calm granted
  rw [decisions_all_snoc, kept_append, kept_singleton, id]
  simp only [grants_iff]

theorem calm_sublist (as : List α) : List.Sublist (calm near limit as) as := by
  have hkept : List.Sublist (calm near limit as)
      (kept (fun _ ↦ true) (decisions near limit (fun _ ↦ true) [] as)) :=
    granted_sublist_kept rfl _
  rwa [kept_all, decisions_fst] at hkept

/-- Below the limit the calm arrivals weigh as much as all do, when every arrival near
`i` that fills up the weight is calm. -/
theorem weight_calm {i : α} (as : List α)
    (hcalm : ∀ u j v, as = u ++ j :: v → near i j = true → weight near u i < limit →
      weight near u j < limit) :
    min limit (weight near as i) ≤ weight near (calm near limit as) i := by
  induction as using List.reverseRecOn with
  | nil => exact Nat.min_le_right _ _
  | append_singleton as j ih =>
      have hold := ih fun u k v has ↦ hcalm u k (v ++ [j]) (by rw [has]; simp)
      rw [calm_snoc, weight_append, weight_append, weight_singleton]
      cases hnear : near i j with
      | false =>
          rw [if_neg Bool.false_ne_true]
          omega
      | true =>
          rw [if_pos rfl]
          by_cases hfull : weight near as i < limit
          · rw [if_pos (hcalm as j [] rfl hnear hfull), weight_singleton, hnear, if_pos rfl]
            omega
          · omega

/-- After an arrival that is not calm and with which the weight is still below the limit,
the calm ones never weigh as much as the limit. -/
theorem weight_calm_lt {u v : List α} {i j : α} (hj : near i j = true)
    (hfull : limit ≤ weight near u j) (hlow : weight near u i < limit)
    (hnear : ∀ k ∈ v, near i k = true → ∀ e, near i e = true → near k e = true) :
    weight near (calm near limit (u ++ j :: v)) i < limit ∧
      weight near (calm near limit (u ++ j :: v)) i < weight near (u ++ j :: v) i := by
  induction v using List.reverseRecOn with
  | nil =>
      have hsub : weight near (calm near limit u) i ≤ weight near u i :=
        weight_le (calm_sublist u) i
      rw [calm_snoc, if_neg (Nat.not_lt.mpr hfull), List.append_nil, weight_append,
        weight_singleton, hj, if_pos rfl]
      omega
  | append_singleton v k ih =>
      obtain ⟨hlt, hless⟩ := ih fun e he ↦ hnear e (List.mem_append_left _ he)
      rw [← List.cons_append, ← List.append_assoc, calm_snoc, weight_append (calm _ _ _),
        weight_append (u ++ j :: v), weight_singleton]
      by_cases hk : near i k = true ∧ weight near (u ++ j :: v) k < limit
      · have hle : weight near (u ++ j :: v) i ≤ weight near (u ++ j :: v) k :=
          List.countP_mono_left fun e _ ↦ hnear k (by simp) hk.1 e
        rw [if_pos hk.2, weight_singleton, if_pos hk.1]
        omega
      · have hzero : weight near (if weight near (u ++ j :: v) k < limit then [k] else []) i = 0 := by
          split
          · rename_i hcalm
            rw [weight_singleton, if_neg fun hn ↦ hk ⟨hn, hcalm⟩]
          · rfl
        rw [hzero]
        omega

theorem grants_calm_iff {i : α} (as : List α)
    (hnear : ∀ k ∈ as, near i k = true → ∀ e, near i e = true → near k e = true) :
    grants near limit (calm near limit as) i = grants near limit as i ↔
      UndisturbedAt near limit as i := by
  constructor
  · rintro heq u j v rfl hj hfull hall
    by_contra hlow
    have hcalm : ∀ k ∈ v, near i k = true → ∀ e, near i e = true → near k e = true :=
      fun k hk ↦ hnear k (by simp [hk])
    have hlt := (weight_calm_lt hj hfull (Nat.not_le.mp hlow) hcalm).1
    rw [grants_iff.mpr hlt] at heq
    exact absurd (grants_iff.mp heq.symm) (Nat.not_lt.mpr hall)
  · intro hund
    have hsub : weight near (calm near limit as) i ≤ weight near as i :=
      weight_le (calm_sublist as) i
    have hleast : limit ≤ weight near as i → limit ≤ weight near (calm near limit as) i := by
      intro hall
      have hmin : min limit (weight near as i) ≤ weight near (calm near limit as) i :=
        weight_calm as fun u j v has hj hlow ↦
          Nat.lt_of_not_le fun hfull ↦ Nat.not_le.mpr hlow (hund u j v has hj hfull hall)
      omega
    unfold grants
    apply decide_eq_decide.mpr
    omega

/-- Recording every arrival gives the answers that recording the granted ones gives
exactly when no arrival of a full window disturbs a later one. -/
theorem decisions_eq_iff
    (hnear : as.Pairwise fun k i ↦ near i k = true → ∀ e, near i e = true → near k e = true) :
    decisions near limit id [] as = decisions near limit (fun _ ↦ true) [] as ↔
      Undisturbed near limit as := by
  induction as using List.reverseRecOn with
  | nil => exact ⟨fun _ ↦ undisturbed_nil, fun _ ↦ rfl⟩
  | append_singleton as i ih =>
      obtain ⟨hpast, -, hlast⟩ := List.pairwise_append.mp hnear
      have hstep : grants near limit (calm near limit as) i = grants near limit as i ↔
          UndisturbedAt near limit as i :=
        grants_calm_iff as fun k hk ↦ hlast k hk i (List.mem_singleton_self i)
      rw [decisions_snoc, decisions_all_snoc, undisturbed_snoc, ← ih hpast, ← hstep]
      constructor
      · intro heq
        obtain ⟨hold, hnew⟩ := List.append_inj' heq rfl
        rw [hold] at hnew
        exact ⟨hold, congrArg Prod.snd (List.cons.inj hnew).1⟩
      · rintro ⟨hold, hnew⟩
        rw [hold, ← hnew]
        rfl

end

/-! ## Limiters with a state of their own -/

/-- The log of a limiter that answers from its state. -/
def play (allow : σ → α → Bool × σ) : σ → List α → List (α × Bool)
  | _, [] => []
  | s, a :: as => (a, (allow s a).1) :: play allow (allow s a).2 as

/-- A limiter whose state stands for a history, for what is still to come, answers as the
history does. -/
theorem play_eq_decisions {near : α → α → Bool} {limit : ℕ} {keep : Bool → Bool}
    {allow : σ → α → Bool × σ} {R : List α → List α → σ → Prop}
    (hstep : ∀ a rest h s, R (a :: rest) h s → (allow s a).1 = grants near limit h a ∧
      R rest (record near limit keep h a) (allow s a).2) :
    ∀ as h s, R as h s → play allow s as = decisions near limit keep h as
  | [], _, _, _ => rfl
  | a :: as, h, s, hs => by
      obtain ⟨hanswer, hnext⟩ := hstep a as h s hs
      rw [play, decisions, hanswer, play_eq_decisions hstep as _ _ hnext]

end SlidingWindow
