import Mathlib.Data.List.Infix
import Mathlib.Data.List.TakeWhile

/-!
# Substitution of the matches in a text

A matcher looks at a position of a text, and at the character before it, and says
what replaces its match there and what is left.  A substitution goes through the
text from the left and replaces the matches which do not overlap.  What it makes of
the front of a text depends on the rest only as far as a match goes over its end.
-/

namespace S3mp.Encoding

variable {α : Type}

abbrev Matcher (α : Type) := Option α → List α → Option (List α × List α)

/-- The substitution, when the next `n` characters still belong to a match. -/
def substitute (m : Matcher α) : Option α → ℕ → List α → List α
  | _, _, [] => []
  | prev, 0, c :: t =>
    match m prev (c :: t) with
    | none => c :: substitute m (some c) 0 t
    | some (text, rest) => text ++ substitute m (some c) (t.length - rest.length) t
  | _, n + 1, c :: t => substitute m (some c) n t

/-- What a substitution has put out at the end of a front of the text. -/
def emitted (m : Matcher α) : Option α → ℕ → List α → List α → List α
  | _, _, [], _ => []
  | prev, 0, c :: front, rest =>
    match m prev (c :: front ++ rest) with
    | none => c :: emitted m (some c) 0 front rest
    | some (text, left) =>
      text ++ emitted m (some c) ((front ++ rest).length - left.length) front rest
  | _, n + 1, c :: front, rest => emitted m (some c) n front rest

/-- How many characters a match goes over the end of the front. -/
def overrun (m : Matcher α) : Option α → ℕ → List α → List α → ℕ
  | _, n, [], _ => n
  | prev, 0, c :: front, rest =>
    match m prev (c :: front ++ rest) with
    | none => overrun m (some c) 0 front rest
    | some (_, left) => overrun m (some c) ((front ++ rest).length - left.length) front rest
  | _, n + 1, c :: front, rest => overrun m (some c) n front rest

/-- The character before the end of the front. -/
def before : Option α → List α → Option α
  | prev, [] => prev
  | _, c :: front => before (some c) front

section

variable {m : Matcher α} {prev : Option α} {n : ℕ} {front p r r' x y s t text : List α} {c : α}

theorem substitute_append (m : Matcher α) (prev : Option α) (n : ℕ) (front rest : List α) :
    substitute m prev n (front ++ rest) = emitted m prev n front rest ++
      substitute m (before prev front) (overrun m prev n front rest) rest := by
  induction front generalizing prev n with
  | nil => rfl
  | cons c front ih =>
      cases n with
      | succ n => exact ih (some c) n
      | zero =>
          rw [List.cons_append, substitute, emitted, overrun, before]
          rw [List.cons_append]
          cases m prev (c :: (front ++ rest)) with
          | none => exact congrArg (c :: ·) (ih (some c) 0)
          | some found =>
              obtain ⟨text, left⟩ := found
              dsimp only
              rw [ih, List.append_assoc]

theorem substitute_skip (m : Matcher α) (prev : Option α) (x s : List α) :
    substitute m prev x.length (x ++ s) = substitute m (before prev x) 0 s := by
  induction x generalizing prev with
  | nil => rfl
  | cons c x ih => exact ih (some c)

theorem substitute_cons (h : m prev (c :: t) = none) :
    substitute m prev 0 (c :: t) = c :: substitute m (some c) 0 t := by
  rw [substitute, h]

theorem emitted_skip (m : Matcher α) (prev : Option α) (front rest : List α) :
    emitted m prev (front.length + n) front rest = [] ∧
      overrun m prev (front.length + n) front rest = n := by
  induction front generalizing prev with
  | nil => exact ⟨rfl, Nat.zero_add n⟩
  | cons c front ih =>
      rw [List.length_cons, Nat.succ_add]
      exact ih (some c)

theorem emitted_append (m : Matcher α) (prev : Option α) (n : ℕ) (front q rest : List α) :
    emitted m prev n (front ++ q) rest = emitted m prev n front (q ++ rest) ++
        emitted m (before prev front) (overrun m prev n front (q ++ rest)) q rest ∧
      overrun m prev n (front ++ q) rest =
        overrun m (before prev front) (overrun m prev n front (q ++ rest)) q rest := by
  induction front generalizing prev n with
  | nil => exact ⟨rfl, rfl⟩
  | cons c front ih =>
      cases n with
      | succ n => exact ih (some c) n
      | zero =>
          rw [List.cons_append, emitted, emitted, overrun, overrun, before]
          rw [List.cons_append, List.cons_append, List.append_assoc]
          cases m prev (c :: (front ++ (q ++ rest))) with
          | none =>
              obtain ⟨hemitted, hover⟩ := ih (some c) 0
              exact ⟨congrArg (c :: ·) hemitted, hover⟩
          | some found =>
              obtain ⟨text, left⟩ := found
              dsimp only
              obtain ⟨hemitted, hover⟩ := ih (some c) ((front ++ (q ++ rest)).length - left.length)
              rw [hemitted, List.append_assoc]
              exact ⟨rfl, hover⟩

/-- No match begins in the front. -/
theorem scan_none (h : ∀ p, p <:+ front → p ≠ [] → ∀ prev, m prev (p ++ r) = none)
    (prev : Option α) : emitted m prev 0 front r = front ∧ overrun m prev 0 front r = 0 := by
  induction front generalizing prev with
  | nil => exact ⟨rfl, rfl⟩
  | cons c front ih =>
      have hnone := h (c :: front) List.suffix_rfl (List.cons_ne_nil c front) prev
      obtain ⟨hemitted, hover⟩ :=
        ih (fun p hp ↦ h p (hp.trans (List.suffix_cons c front))) (some c)
      rw [emitted, overrun, hnone]
      exact ⟨congrArg (c :: ·) hemitted, hover⟩

/-- What has been put out ends with the replacement of the match which goes over the end. -/
theorem emitted_of_overrun (good : List α → Prop)
    (hgood : ∀ prev p text left, m prev p = some (text, left) → good text) (hn : n ≤ front.length)
    (h : 0 < overrun m prev n front r) : ∃ out text, emitted m prev n front r = out ++ text ∧
      good text := by
  induction front generalizing prev n with
  | nil =>
      obtain rfl := Nat.le_zero.mp hn
      exact absurd h (lt_irrefl 0)
  | cons c front ih =>
      cases n with
      | succ n => exact ih (Nat.le_of_succ_le_succ hn) h
      | zero =>
          rw [overrun] at h
          rw [emitted]
          cases hm : m prev (c :: front ++ r) with
          | none =>
              rw [hm] at h
              obtain ⟨out, text, hout, htext⟩ := ih (Nat.zero_le _) h
              exact ⟨c :: out, text, congrArg (c :: ·) hout, htext⟩
          | some found =>
              obtain ⟨text, left⟩ := found
              rw [hm] at h
              dsimp only at h ⊢
              by_cases hle : (front ++ r).length - left.length ≤ front.length
              · obtain ⟨out, last, hout, hlast⟩ := ih hle h
                exact ⟨text ++ out, last, by rw [hout, List.append_assoc], hlast⟩
              · refine ⟨[], text, ?_, hgood _ _ _ _ hm⟩
                rw [← Nat.add_sub_of_le (Nat.le_of_not_le hle), (emitted_skip m _ front r).1,
                  List.append_nil]
                rfl

/-- What has been put out ends with the last character of the front, or with the replacement
of a match which ends there. -/
theorem emitted_last {good : List α → Prop}
    (hgood : ∀ prev p text left, m prev p = some (text, left) → good text) (hn : n ≤ front.length) :
    (∃ out, emitted m prev n (front ++ [c]) r = out ++ [c]) ∨
      ∃ out text, emitted m prev n (front ++ [c]) r = out ++ text ∧ good text := by
  rw [(emitted_append m prev n front [c] r).1]
  cases hfront : overrun m prev n front ([c] ++ r) with
  | succ k =>
      have hpos : 0 < overrun m prev n front ([c] ++ r) := by
        rw [hfront]
        exact Nat.succ_pos k
      obtain ⟨out, text, hout, htext⟩ := emitted_of_overrun good hgood hn hpos
      refine Or.inr ⟨out, text, ?_, htext⟩
      rw [hout]
      exact List.append_nil _
  | zero =>
      rw [emitted]
      cases hm : m (before prev front) ([c] ++ r) with
      | none => exact Or.inl ⟨_, rfl⟩
      | some found =>
          obtain ⟨text, left⟩ := found
          refine Or.inr ⟨emitted m prev n front ([c] ++ r), text, ?_, hgood _ _ _ _ hm⟩
          exact congrArg _ (List.append_nil text)

/-- The matcher decides within the front, and with either rest in the same way. -/
inductive Within (p r r' : List α) : Option (List α × List α) → Option (List α × List α) → Prop
  | none : Within p r r' none none
  | some (text q : List α) (hq : q.length < p.length) :
      Within p r r' (some (text, q ++ r)) (some (text, q ++ r'))

/-- The scan of the front puts out `out`, and then it is at its part `p`. -/
def Arrives (m : Matcher α) (prev : Option α) (n : ℕ) (front r out : List α) (last : Option α)
    (p : List α) : Prop :=
  emitted m prev n front r = out ++ emitted m last 0 p r ∧
    overrun m prev n front r = overrun m last 0 p r

/-- Two scans go together up to the first place where the matcher does not decide within the
front. -/
theorem scan_parts (m : Matcher α) (prev : Option α) (r r' : List α)
    (hn : n ≤ front.length) :
    (emitted m prev n front r = emitted m prev n front r' ∧
        overrun m prev n front r = 0 ∧ overrun m prev n front r' = 0) ∨
      ∃ out last p, p <:+ front ∧ p ≠ [] ∧ Arrives m prev n front r out last p ∧
        Arrives m prev n front r' out last p ∧
        ¬ Within p r r' (m last (p ++ r)) (m last (p ++ r')) := by
  induction front generalizing prev n with
  | nil =>
      obtain rfl := Nat.le_zero.mp hn
      exact Or.inl ⟨rfl, rfl, rfl⟩
  | cons c front ih =>
      cases n with
      | succ n =>
          rcases ih (some c) (Nat.le_of_succ_le_succ hn) with hsame | ⟨out, last, p, hp, h⟩
          · exact Or.inl hsame
          · exact Or.inr ⟨out, last, p, hp.trans (List.suffix_cons c front), h⟩
      | zero =>
          by_cases hstep : Within (c :: front) r r' (m prev (c :: front ++ r))
              (m prev (c :: front ++ r'))
          · unfold Arrives
            rw [emitted, emitted, overrun, overrun]
            generalize m prev (c :: front ++ r) = o, m prev (c :: front ++ r') = o' at hstep ⊢
            cases hstep with
            | none =>
                rcases ih (some c) (Nat.zero_le _) with ⟨hemitted, hover⟩ |
                  ⟨out, last, p, hp, hne, h, h', hnot⟩
                · exact Or.inl ⟨congrArg (c :: ·) hemitted, hover⟩
                · exact Or.inr ⟨c :: out, last, p, hp.trans (List.suffix_cons c front), hne,
                    ⟨congrArg (c :: ·) h.1, h.2⟩, ⟨congrArg (c :: ·) h'.1, h'.2⟩, hnot⟩
            | some text q hq =>
                have hleft : ∀ r : List α,
                    (front ++ r).length - (q ++ r).length = front.length - q.length := by
                  intro r
                  rw [List.length_append, List.length_append]
                  omega
                dsimp only
                rw [hleft, hleft]
                rcases ih (some c) (Nat.sub_le front.length q.length) with ⟨hemitted, hover⟩ |
                  ⟨out, last, p, hp, hne, h, h', hnot⟩
                · exact Or.inl ⟨congrArg (text ++ ·) hemitted, hover⟩
                · refine Or.inr ⟨text ++ out, last, p, hp.trans (List.suffix_cons c front), hne,
                    ⟨?_, h.2⟩, ⟨?_, h'.2⟩, hnot⟩
                  · rw [h.1, List.append_assoc]
                  · rw [h'.1, List.append_assoc]
          · exact Or.inr ⟨[], prev, c :: front, List.suffix_rfl, List.cons_ne_nil c front,
              ⟨rfl, rfl⟩, ⟨rfl, rfl⟩, hstep⟩

/-- A match which goes over the front puts its replacement out. -/
theorem arrives_over (hp : p ≠ []) (hm : m prev (p ++ (x ++ s)) = some (text, s)) :
    emitted m prev 0 p (x ++ s) = text ∧ overrun m prev 0 p (x ++ s) = x.length := by
  cases p with
  | nil => exact absurd rfl hp
  | cons c p =>
      have hleft : (p ++ (x ++ s)).length - s.length = p.length + x.length := by
        rw [List.length_append, List.length_append]
        omega
      rw [emitted, overrun, hm]
      dsimp only
      rw [hleft, (emitted_skip m _ p _).1, (emitted_skip m _ p _).2, List.append_nil]
      exact ⟨rfl, rfl⟩

theorem scan_within (m : Matcher α) (prev : Option α) (front r r' : List α)
    (h : ∀ p, p <:+ front → p ≠ [] → ∀ prev, Within p r r' (m prev (p ++ r)) (m prev (p ++ r'))) :
    emitted m prev 0 front r = emitted m prev 0 front r' ∧
      overrun m prev 0 front r = 0 ∧ overrun m prev 0 front r' = 0 := by
  rcases scan_parts m prev r r' (Nat.zero_le _) with hsame | ⟨out, last, p, hp, hne, -, -, hnot⟩
  · exact hsame
  · exact absurd (h p hp hne last) hnot

/-- The matcher decides within the front, or its match ends with the first part of the rest. -/
inductive WithinOrOver (p x s y t : List α) :
    Option (List α × List α) → Option (List α × List α) → Prop
  | within {o o' : Option (List α × List α)} (h : Within p (x ++ s) (y ++ t) o o') :
      WithinOrOver p x s y t o o'
  | past (text : List α) : WithinOrOver p x s y t (some (text, s)) (some (text, t))

theorem scan_over (m : Matcher α) (prev : Option α) (front x s y t : List α)
    (h : ∀ p, p <:+ front → p ≠ [] → ∀ prev,
      WithinOrOver p x s y t (m prev (p ++ (x ++ s))) (m prev (p ++ (y ++ t)))) :
    emitted m prev 0 front (x ++ s) = emitted m prev 0 front (y ++ t) ∧
      (overrun m prev 0 front (x ++ s) = 0 ∧ overrun m prev 0 front (y ++ t) = 0 ∨
        overrun m prev 0 front (x ++ s) = x.length ∧
          overrun m prev 0 front (y ++ t) = y.length) := by
  rcases scan_parts m prev (x ++ s) (y ++ t) (Nat.zero_le _) with ⟨hemitted, hover⟩ |
    ⟨out, last, p, hp, hne, hx, hy, hnot⟩
  · exact ⟨hemitted, Or.inl hover⟩
  · have hstep := h p hp hne last
    generalize hox : m last (p ++ (x ++ s)) = o, hoy : m last (p ++ (y ++ t)) = o' at hstep hnot
    cases hstep with
    | within hwithin => exact absurd hwithin hnot
    | past text =>
        obtain ⟨hemitted, hover⟩ := arrives_over hne hox
        obtain ⟨hemitted', hover'⟩ := arrives_over hne hoy
        refine ⟨?_, Or.inr ⟨hx.2.trans hover, hy.2.trans hover'⟩⟩
        rw [hx.1, hy.1, hemitted, hemitted']

/-- A match which ends exactly with the front keeps the scan of another rest from being the
same; its replacement then ends what has been put out. -/
theorem scan_within_or_ends (m : Matcher α) (prev : Option α) (front r r' : List α)
    (good : List α → Prop)
    (h : ∀ p, p <:+ front → p ≠ [] → ∀ prev, Within p r r' (m prev (p ++ r)) (m prev (p ++ r')) ∨
      ∃ text, m prev (p ++ r') = some (text, r') ∧ good text) :
    emitted m prev 0 front r = emitted m prev 0 front r' ∧ overrun m prev 0 front r = 0 ∧
        overrun m prev 0 front r' = 0 ∨
      ∃ out text, emitted m prev 0 front r' = out ++ text ∧ good text := by
  rcases scan_parts m prev r r' (Nat.zero_le _) with hsame | ⟨out, last, p, hp, hne, -, hr', hnot⟩
  · exact Or.inl hsame
  · obtain ⟨text, hm, hgood⟩ := (h p hp hne last).resolve_left hnot
    refine Or.inr ⟨out, text, ?_, hgood⟩
    exact hr'.1.trans (congrArg (out ++ ·) (arrives_over (x := []) hne hm).1)

/-! ## Parts of a pattern -/

/-- One character of a class. -/
def one (p : α → Bool) : List α → Option (List α)
  | [] => none
  | c :: t => if p c then some t else none

/-- At least one character of a class, and as many as there are. -/
def many (p : α → Bool) (t : List α) : Option (List α) :=
  if t.head?.any p then some (t.dropWhile p) else none

theorem dropWhile_stop {p : α → Bool} (hc : p c = false) (front t : List α) :
    (front ++ c :: t).dropWhile p = front.dropWhile p ++ c :: t := by
  induction front with
  | nil => rw [List.nil_append, List.dropWhile_cons_of_neg (by simp [hc]), List.dropWhile_nil]; rfl
  | cons d front ih =>
      rw [List.cons_append, List.dropWhile_cons, List.dropWhile_cons, ih]
      split
      · rfl
      · rfl

theorem dropWhile_all {p : α → Bool} (hfront : ∀ c ∈ front, p c = true) (t : List α) :
    (front ++ t).dropWhile p = t.dropWhile p := by
  induction front with
  | nil => rfl
  | cons d front ih =>
      rw [List.cons_append, List.dropWhile_cons, if_pos (hfront d List.mem_cons_self)]
      exact ih fun c hc ↦ hfront c (List.mem_cons_of_mem d hc)

theorem dropWhile_head {p : α → Bool} (h : ∀ c ∈ t.head?, p c = false) : t.dropWhile p = t := by
  cases t with
  | nil => rfl
  | cons c t => rw [List.dropWhile_cons, if_neg (by simp [h c rfl])]

theorem many_all {p : α → Bool} (hne : front ≠ []) (hfront : ∀ c ∈ front, p c = true)
    (hr : ∀ c ∈ r.head?, p c = false) : many p (front ++ r) = some r := by
  have hany : (front ++ r).head?.any p = true := by
    cases front with
    | nil => exact absurd rfl hne
    | cons c front => exact hfront c List.mem_cons_self
  rw [many, if_pos hany, dropWhile_all hfront, dropWhile_head hr]

/-- A part of a pattern decides within the front, whatever follows. -/
inductive Decides (f : List α → Option (List α)) (front : List α) (follows : List α → Prop) : Prop
  | no (h : ∀ r, follows r → f (front ++ r) = none) : Decides f front follows
  | yes (q : List α) (hq : q <:+ front) (h : ∀ r, follows r → f (front ++ r) = some (q ++ r)) :
      Decides f front follows

variable {f g : List α → Option (List α)} {follows : List α → Prop}

theorem Decides.bind (hf : Decides f front follows) (hg : ∀ q, q <:+ front → Decides g q follows) :
    Decides (fun t ↦ (f t).bind g) front follows := by
  cases hf with
  | no h => exact .no fun r hr ↦ by rw [h r hr]; rfl
  | yes q hq h =>
      cases hg q hq with
      | no h' => exact .no fun r hr ↦ by rw [h r hr, Option.bind_some, h' r hr]
      | yes q' hq' h' =>
          exact .yes q' (hq'.trans hq) fun r hr ↦ by rw [h r hr, Option.bind_some, h' r hr]

theorem decides_one {p : α → Bool} (h : ∀ r, follows r → ∀ c ∈ r.head?, p c = false) :
    Decides (one p) front follows := by
  cases front with
  | nil =>
      refine .no fun r hr ↦ ?_
      cases r with
      | nil => rfl
      | cons c r => exact if_neg (by simp [h _ hr c rfl])
  | cons d front =>
      by_cases hd : p d = true
      · exact .yes front (List.suffix_cons d front) fun r _ ↦ if_pos hd
      · exact .no fun r _ ↦ if_neg hd

theorem dropWhile_append {p : α → Bool} (h : ∀ c ∈ r.head?, p c = false) (front : List α) :
    (front ++ r).dropWhile p = front.dropWhile p ++ r := by
  cases r with
  | nil => rw [List.append_nil, List.append_nil]
  | cons c r => exact dropWhile_stop (h c rfl) front r

theorem decides_dropWhile {p : α → Bool} (h : ∀ r, follows r → ∀ c ∈ r.head?, p c = false) :
    Decides (fun t ↦ some (t.dropWhile p)) front follows :=
  .yes (front.dropWhile p) (List.dropWhile_suffix p) fun r hr ↦ by rw [dropWhile_append (h r hr)]

theorem decides_many {p : α → Bool} (h : ∀ r, follows r → ∀ c ∈ r.head?, p c = false) :
    Decides (many p) front follows := by
  by_cases hfront : front.head?.any p = true
  · refine .yes (front.dropWhile p) (List.dropWhile_suffix p) fun r hr ↦ ?_
    have hany : (front ++ r).head?.any p = true := by
      cases front with
      | nil => cases hfront
      | cons d front => exact hfront
    rw [many, if_pos hany, dropWhile_append (h r hr)]
  · refine .no fun r hr ↦ if_neg ?_
    cases front with
    | cons d front => exact hfront
    | nil =>
        cases r with
        | nil => simp
        | cons c r => simp [h _ hr c rfl]

/-- A front which is not of the class all through stops the pattern itself. -/
theorem many_of_not_all {p : α → Bool} (hall : ¬ ∀ c ∈ front, p c = true) :
    (∀ r, many p (front ++ r) = none) ∨
      ∃ c v, c :: v <:+ front ∧ ∀ r, many p (front ++ r) = some (c :: v ++ r) := by
  cases hdrop : front.dropWhile p with
  | nil => exact absurd (List.dropWhile_eq_nil_iff.mp hdrop) hall
  | cons c v =>
      have hc : p c = false := by
        have hhead := List.head?_dropWhile_not p front
        rw [hdrop] at hhead
        simpa using hhead
      have hfront : front = front.takeWhile p ++ c :: v := by
        rw [← hdrop, List.takeWhile_append_dropWhile]
      have hrest : ∀ r, (front ++ r).dropWhile p = c :: v ++ r := by
        intro r
        have hnil : (front.takeWhile p).dropWhile p = [] :=
          List.dropWhile_eq_nil_iff.mpr fun d hd ↦ List.mem_takeWhile_imp hd
        rw [hfront, List.append_assoc, List.cons_append, dropWhile_stop hc, hnil]
        rfl
      have hhead : ∀ r, (front ++ r).head? = front.head? := by
        intro r
        rw [hfront]
        cases front.takeWhile p with
        | nil => rfl
        | cons d u => rfl
      by_cases hfirst : front.head?.any p = true
      · refine Or.inr ⟨c, v, hdrop ▸ List.dropWhile_suffix p, fun r ↦ ?_⟩
        rw [many, hhead, if_pos hfirst, hrest]
      · refine Or.inl fun r ↦ ?_
        rw [many, hhead, if_neg hfirst]

/-- Characters of a class up to one which is asked for: what follows does not offer it. -/
theorem decides_many_one {p q : α → Bool}
    (h : ∀ r, follows r → ∀ c ∈ (r.dropWhile p).head?, q c = false) :
    Decides (fun t ↦ (many p t).bind (one q)) front follows := by
  have hone : ∀ r, follows r → one q (r.dropWhile p) = none := by
    intro r hr
    cases hdrop : r.dropWhile p with
    | nil => rfl
    | cons c t => exact if_neg (by simp [h r hr c (by rw [hdrop]; rfl)])
  have hnone : ∀ r, follows r → (∀ c ∈ front, p c = true) →
      (many p (front ++ r)).bind (one q) = none := by
    intro r hr hall
    unfold many
    split
    · rw [Option.bind_some, dropWhile_all hall, hone r hr]
    · rfl
  by_cases hall : ∀ c ∈ front, p c = true
  · exact .no fun r hr ↦ hnone r hr hall
  rcases many_of_not_all hall with hno | ⟨c, v, hsuffix, hyes⟩
  · exact .no fun r _ ↦ by rw [hno r, Option.bind_none]
  by_cases hq : q c = true
  · refine .yes v ((List.suffix_cons c v).trans hsuffix) fun r _ ↦ ?_
    rw [hyes r]
    exact if_pos hq
  · refine .no fun r _ ↦ ?_
    rw [hyes r]
    exact if_neg hq

end

end S3mp.Encoding
