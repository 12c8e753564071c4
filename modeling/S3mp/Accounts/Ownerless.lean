import S3mp.Accounts.OwnerTxns

/-!
# Containment of ownerless applications

Transactions on owners under way at the same time, with the rows each has locked,
and the governance scans, which read first and then work as a series of
transactions.
-/

namespace S3mp

open Relational Transition Registry

structure Scan where
  tenantId : Uuid
  startedAt : Timestamp
  unread : List Uuid
  owned : List Uuid
  queue : List Uuid
  current : Option ℕ
  closing : Bool

structure OwnerWorld where
  db : Registry
  clock : Timestamp
  txns : Table ℕ OpenTxn
  scans : Table ℕ Scan
  /-- When the last completed scan of the tenant began. -/
  scannedAt : Uuid → Timestamp

namespace Scan

/-- The owners of one application have been read. -/
def read (applicationId : Uuid) (owners : List Uuid) (s : Scan) : Scan :=
  { s with
    unread := s.unread.tail
    owned := if owners = [] then s.owned else applicationId :: s.owned
    queue := s.queue ++ owners }

end Scan

inductive OwnerCmd where
  | tick (now : Timestamp)
  | begin (i : ℕ) (t : OwnerTxn)
  | next (i : ℕ)
  | commit (i : ℕ)
  | abort (i : ℕ)
  | startScan (j : ℕ) (tenantId : Uuid)
  | nextScan (j i : ℕ)

namespace OwnerWorld

/-- No other transaction holds one of the rows. -/
def free (i : ℕ) (rows : List LockedRow) (w : OwnerWorld) : Bool :=
  !(w.txns.anyRow fun j x ↦ j ≠ i && (x.locks w.db).any (· ∈ rows))

/-- The scan goes on, or it is complete, when its transaction has committed. -/
def returned (scan : Option ℕ) (w : OwnerWorld) : OwnerWorld :=
  match scan.bind fun j ↦ (w.scans.lookup j).map (j, ·) with
  | none => w
  | some (j, s) =>
    if s.closing then { w with
      scans := w.scans.erase j
      scannedAt := fun t ↦ if t = s.tenantId then max (w.scannedAt t) s.startedAt
        else w.scannedAt t }
    else { w with scans := w.scans.insert j { s with current := none } }

/-- The next transaction of the scan. -/
def spawned (j i : ℕ) (s : Scan) (w : OwnerWorld) : OwnerWorld :=
  match s.queue with
  | [] => { w with
      txns := w.txns.insert i ⟨.containUnowned s.tenantId s.owned, .started, [], some j⟩
      scans := w.scans.insert j { s with current := some i, closing := true } }
  | owner :: queue => { w with
      txns := w.txns.insert i ⟨.recompute s.tenantId owner, .started, [], some j⟩
      scans := w.scans.insert j { s with queue := queue, current := some i } }

/-- A command which cannot be executed has to wait. -/
def exec : OwnerCmd → OwnerWorld → Except Unit OwnerWorld
  | .tick now, w => if w.clock ≤ now then .ok { w with clock := now } else .error ()
  | .begin i t, w =>
    if i ∉ w.txns ∧ t.begins w.db ∧ w.free i (t.locks w.db) then
      .ok { w with txns := w.txns.insert i ⟨t, t.firstStage, [], none⟩ }
    else .error ()
  | .next i, w =>
    match w.txns.lookup i with
    | none => .error ()
    | some x =>
      if w.free i (x.nextLock w.db) then
        .ok { w with txns := w.txns.insert i (x.next w.clock w.db) }
      else .error ()
  | .commit i, w =>
    match w.txns.lookup i with
    | none => .error ()
    | some x =>
      if x.finished ∧ x.txn.insertable w.db then
        .ok ({ w with db := x.view w.db, txns := w.txns.erase i }.returned x.scan)
      else .error ()
  | .abort i, w =>
    match w.txns.lookup i with
    | none => .error ()
    | some x => .ok { w with
        txns := w.txns.erase i
        scans := x.scan.elim w.scans w.scans.erase }
  | .startScan j tenantId, w =>
    if j ∈ w.scans then .error ()
    else .ok { w with
      scans := w.scans.insert j
        ⟨tenantId, w.clock, w.db.activeApplications tenantId, [], [], none, false⟩ }
  | .nextScan j i, w =>
    match w.scans.lookup j with
    | none => .error ()
    | some s =>
      if s.current.isSome ∨ i ∈ w.txns then .error ()
      else match s.unread with
        | [] => .ok (w.spawned j i s)
        | a :: _ => .ok { w with
            scans := w.scans.insert j (s.read a (w.db.ownersOf s.tenantId a)) }

end OwnerWorld

namespace OwnerWorld

variable {w w' : OwnerWorld} {i j : ℕ} {s : Scan} {x : OpenTxn} {σ : Timestamp}

/-! ## The invariant -/

/-- Every active application has an owner who was in force when the last scan began. -/
def Contained (w : OwnerWorld) : Prop :=
  ∀ a app, w.db.applications.lookup a = some app → app.status = .active →
    w.db.activeOwner (w.scannedAt app.tenantId) app.tenantId a

/-- The scan is still to look at the application, or contains it. -/
def Pending (s : Scan) (a : Uuid) (w : OwnerWorld) : Prop :=
  (¬ s.closing ∧ a ∉ s.owned) ∨ (∃ p ∈ s.queue, w.db.owns s.tenantId p a) ∨
    ∃ i x, s.current = some i ∧ w.txns.lookup i = some x ∧ x.Handles w.db a

structure Running (j : ℕ) (s : Scan) (w : OwnerWorld) : Prop where
  started : s.startedAt ≤ w.clock
  covers : ∀ a app, w.db.applications.lookup a = some app → app.status = .active →
    app.tenantId = s.tenantId → w.db.activeOwner s.startedAt s.tenantId a ∨ w.Pending s a
  current : ∀ i, s.current = some i → ∃ x, w.txns.lookup i = some x ∧ x.scan = some j ∧
    x.OfScan s.tenantId
  closing : s.closing → s.queue = [] ∧ s.current.isSome

structure Upheld (w : OwnerWorld) : Prop where
  contained : w.Contained
  slack : ∀ t, w.scannedAt t ≤ w.clock
  running : ∀ j s, w.scans.lookup j = some s → w.Running j s
  serves : ∀ i x j, w.txns.lookup i = some x → x.scan = some j →
    ∃ s, w.scans.lookup j = some s ∧ s.current = some i

/-- The commands which commit do so soundly. -/
def Sound (w : OwnerWorld) : OwnerCmd → Prop
  | .commit i => ∀ x, w.txns.lookup i = some x → x.Sound w.clock w.db
  | _ => True

/-- A change of the transactions under way which keeps those of the scan. -/
theorem Running.of_txns {txns : Table ℕ OpenTxn} {scans : Table ℕ Scan} (h : w.Running j s)
    (hkeep : ∀ k x, s.current = some k → w.txns.lookup k = some x → x.scan = some j →
      txns.lookup k = some x) :
    ({ w with txns := txns, scans := scans } : OwnerWorld).Running j s := by
  refine ⟨h.started, fun a app happ hactive htenant ↦ ?_, fun k hk ↦ ?_, h.closing⟩
  · refine (h.covers a app happ hactive htenant).imp_right ?_
    rintro (hread | hqueue | ⟨k, x, hk, hx, hhandles⟩)
    · exact Or.inl hread
    · exact Or.inr (Or.inl hqueue)
    · obtain ⟨x', hx', hscan, -⟩ := h.current k hk
      obtain rfl := Option.some.inj (hx.symm.trans hx')
      exact Or.inr (Or.inr ⟨k, x, hk, hkeep k x hk hx hscan, hhandles⟩)
  · obtain ⟨x, hx, hscan, hof⟩ := h.current k hk
    exact ⟨x, hkeep k x hk hx hscan, hscan, hof⟩

theorem Upheld.tick (h : w.Upheld) {now : Timestamp} (hnow : w.clock ≤ now) :
    ({ w with clock := now } : OwnerWorld).Upheld :=
  ⟨h.contained, fun t ↦ (h.slack t).trans hnow,
    fun j s hs ↦ ⟨(h.running j s hs).started.trans hnow, (h.running j s hs).covers,
      (h.running j s hs).current, (h.running j s hs).closing⟩, h.serves⟩

theorem Upheld.begin (h : w.Upheld) (hi : i ∉ w.txns) (hscan : x.scan = none) :
    ({ w with txns := w.txns.insert i x } : OwnerWorld).Upheld := by
  refine ⟨h.contained, h.slack, fun j s hs ↦ ?_, fun k y j hk hj ↦ ?_⟩
  · refine (h.running j s hs).of_txns fun k y _ hy _ ↦ ?_
    rw [AList.lookup_insert', if_neg ?_]
    · exact hy
    · rintro rfl
      exact hi (AList.mem_of_lookup hy)
  · change (w.txns.insert i x).lookup k = some y at hk
    rw [AList.lookup_insert'] at hk
    split at hk
    · obtain rfl := Option.some.inj hk
      rw [hscan] at hj
      cases hj
    · exact h.serves k y j hk hj

theorem Upheld.next (h : w.Upheld) (hx : w.txns.lookup i = some x) :
    ({ w with txns := w.txns.insert i (x.next w.clock w.db) } : OwnerWorld).Upheld := by
  have hsame : (x.next w.clock w.db).scan = x.scan ∧ (x.next w.clock w.db).txn = x.txn := by
    unfold OpenTxn.next
    split
    · exact ⟨rfl, rfl⟩
    · exact ⟨rfl, rfl⟩
    · exact ⟨rfl, rfl⟩
    · exact ⟨rfl, rfl⟩
  refine ⟨h.contained, h.slack, fun j s hs ↦ ?_, fun k y j hk hj ↦ ?_⟩
  · have hrunning := h.running j s hs
    refine ⟨hrunning.started, fun a app happ hactive htenant ↦ ?_, fun k hk ↦ ?_, hrunning.closing⟩
    · rcases hrunning.covers a app happ hactive htenant with
        howner | hread | hqueue | ⟨k, y, hk, hy, hhandles⟩
      · exact Or.inl howner
      · exact Or.inr (Or.inl hread)
      · exact Or.inr (Or.inr (Or.inl hqueue))
      · by_cases hki : k = i
        · subst hki
          obtain rfl := Option.some.inj (hx.symm.trans hy)
          obtain ⟨z, hz, -, hof⟩ := hrunning.current k hk
          obtain rfl := Option.some.inj (hx.symm.trans hz)
          have hnext : (x.next w.clock w.db).Handles w.db a ∨ w.db.activeOwner w.clock s.tenantId a :=
            hhandles.next hof happ hactive htenant
          rcases hnext with hhandles | howner
          · exact Or.inr (Or.inr (Or.inr ⟨k, _, hk, AList.lookup_insert _, hhandles⟩))
          · exact Or.inl (activeOwner_earlier howner hrunning.started)
        · refine Or.inr (Or.inr (Or.inr ⟨k, y, hk, ?_, hhandles⟩))
          change (w.txns.insert i _).lookup k = some y
          rw [AList.lookup_insert_ne hki]
          exact hy
    · obtain ⟨y, hy, hscan, hof⟩ := hrunning.current k hk
      by_cases hki : k = i
      · subst hki
        obtain rfl := Option.some.inj (hx.symm.trans hy)
        refine ⟨_, AList.lookup_insert _, hsame.1.trans hscan, ?_⟩
        unfold OpenTxn.OfScan at hof ⊢
        rwa [hsame.2]
      · refine ⟨y, ?_, hscan, hof⟩
        change (w.txns.insert i _).lookup k = some y
        rw [AList.lookup_insert_ne hki]
        exact hy
  · change (w.txns.insert i _).lookup k = some y at hk
    rw [AList.lookup_insert'] at hk
    split at hk
    · rename_i hki
      obtain rfl := Option.some.inj hk
      rw [hsame.1] at hj
      exact hki ▸ h.serves i x j hx hj
    · exact h.serves k y j hk hj

theorem Upheld.abort (h : w.Upheld) (hx : w.txns.lookup i = some x) :
    ({ w with
      txns := w.txns.erase i
      scans := x.scan.elim w.scans w.scans.erase } : OwnerWorld).Upheld := by
  have hscans : ∀ {j s}, (x.scan.elim w.scans w.scans.erase).lookup j = some s →
      w.scans.lookup j = some s ∧ x.scan ≠ some j := by
    intro j s hs
    cases hscan : x.scan with
    | none =>
        rw [hscan] at hs
        exact ⟨hs, by simp⟩
    | some j' =>
        rw [hscan, Option.elim_some] at hs
        by_cases hj : j = j'
        · rw [hj, AList.lookup_erase] at hs
          cases hs
        · rw [AList.lookup_erase_ne hj] at hs
          exact ⟨hs, fun heq ↦ hj (Option.some.inj heq).symm⟩
  refine ⟨h.contained, h.slack, fun j s hs ↦ ?_, fun k y j hk hj ↦ ?_⟩
  · obtain ⟨hs, hother⟩ := hscans hs
    refine (h.running j s hs).of_txns fun k y _ hy hscan ↦ ?_
    rw [AList.lookup_erase_ne ?_]
    · exact hy
    · rintro rfl
      obtain rfl := Option.some.inj (hx.symm.trans hy)
      exact hother hscan
  · change (w.txns.erase i).lookup k = some y at hk
    by_cases hki : k = i
    · rw [hki, AList.lookup_erase] at hk
      cases hk
    · rw [AList.lookup_erase_ne hki] at hk
      obtain ⟨s, hs, hcurrent⟩ := h.serves k y j hk hj
      refine ⟨s, ?_, hcurrent⟩
      change (x.scan.elim w.scans w.scans.erase).lookup j = some s
      cases hscan : x.scan with
      | none => exact hs
      | some j' =>
          rw [Option.elim_some, AList.lookup_erase_ne ?_]
          · exact hs
          · rintro rfl
            obtain ⟨s', hs', hcurrent'⟩ := h.serves i x j hx hscan
            obtain rfl := Option.some.inj (hs.symm.trans hs')
            exact hki (Option.some.inj (hcurrent.symm.trans hcurrent'))

theorem Upheld.startScan (h : w.Upheld) (hj : j ∉ w.scans) {t : Uuid} {unread : List Uuid} :
    ({ w with
      scans := w.scans.insert j ⟨t, w.clock, unread, [], [], none, false⟩ } : OwnerWorld).Upheld := by
  refine ⟨h.contained, h.slack, fun k s hs ↦ ?_, fun i x k hx hk ↦ ?_⟩
  · change (w.scans.insert j _).lookup k = some s at hs
    rw [AList.lookup_insert'] at hs
    split at hs
    · obtain rfl := Option.some.inj hs
      exact ⟨le_rfl, fun a app _ _ _ ↦ Or.inr (Or.inl ⟨Bool.false_ne_true, List.not_mem_nil⟩),
        fun i hi ↦ (by cases hi), fun hclosing ↦ (by cases hclosing)⟩
    · exact (h.running k s hs).of_txns fun _ _ _ hx _ ↦ hx
  · obtain ⟨s, hs, hcurrent⟩ := h.serves i x k hx hk
    refine ⟨s, ?_, hcurrent⟩
    change (w.scans.insert j _).lookup k = some s
    rw [AList.lookup_insert_ne ?_]
    · exact hs
    · rintro rfl
      exact hj (AList.mem_of_lookup hs)

theorem not_mem_of_current (h : w.Upheld) (hs : w.scans.lookup j = some s)
    (hcurrent : s.current = none) (hx : w.txns.lookup i = some x) : x.scan ≠ some j := by
  intro hscan
  obtain ⟨s', hs', hcurrent'⟩ := h.serves i x j hx hscan
  obtain rfl := Option.some.inj (hs.symm.trans hs')
  rw [hcurrent] at hcurrent'
  cases hcurrent'

theorem Upheld.read (h : w.Upheld) (hs : w.scans.lookup j = some s) (hcurrent : s.current = none)
    {a : Uuid} {owners : List Uuid} (howners : owners = w.db.ownersOf s.tenantId a) :
    ({ w with scans := w.scans.insert j (s.read a owners) } : OwnerWorld).Upheld := by
  have hrunning := h.running j s hs
  refine ⟨h.contained, h.slack, fun k s' hs' ↦ ?_, fun i x k hx hk ↦ ?_⟩
  · change (w.scans.insert j _).lookup k = some s' at hs'
    rw [AList.lookup_insert'] at hs'
    split at hs'
    · rename_i hk
      obtain rfl := Option.some.inj hs'
      refine ⟨hrunning.started, fun b app happ hactive htenant ↦ ?_, fun i hi ↦ ?_,
        fun hclosing ↦ ?_⟩
      · rcases hrunning.covers b app happ hactive htenant with
          howner | ⟨hopen, hb⟩ | ⟨p, hp, howns⟩ | ⟨i, x, hi, -⟩
        · exact Or.inl howner
        · right
          by_cases hnone : owners = []
          · refine Or.inl ⟨hopen, ?_⟩
            rw [Scan.read, if_pos hnone]
            exact hb
          · by_cases hba : b = a
            · obtain ⟨p, hp⟩ := List.exists_mem_of_ne_nil owners hnone
              refine Or.inr (Or.inl ⟨p, List.mem_append_right _ hp, ?_⟩)
              rw [howners] at hp
              rw [hba]
              exact mem_ownersOf.mp hp
            · refine Or.inl ⟨hopen, ?_⟩
              rw [Scan.read, if_neg hnone, List.mem_cons, not_or]
              exact ⟨hba, hb⟩
        · exact Or.inr (Or.inr (Or.inl ⟨p, List.mem_append_left _ hp, howns⟩))
        · rw [hcurrent] at hi
          cases hi
      · change s.current = some i at hi
        rw [hcurrent] at hi
        cases hi
      · have hsome := (hrunning.closing hclosing).2
        rw [hcurrent] at hsome
        cases hsome
    · exact (h.running k s' hs').of_txns fun _ _ _ hx _ ↦ hx
  · obtain ⟨s', hs', hcurrent'⟩ := h.serves i x k hx hk
    refine ⟨s', ?_, hcurrent'⟩
    change (w.scans.insert j _).lookup k = some s'
    rw [AList.lookup_insert_ne ?_]
    · exact hs'
    · rintro rfl
      exact not_mem_of_current h hs hcurrent hx hk

/-- The scan gets its next transaction, which takes over a part of what is left to look at. -/
theorem Upheld.spawn (h : w.Upheld) (hs : w.scans.lookup j = some s) (hcurrent : s.current = none)
    (hi : i ∉ w.txns) (hx : x.scan = some j) (hof : x.OfScan s.tenantId) {q : List Uuid}
    {b : Bool} (hclosing : b → q = [])
    (hcovers : ∀ a app, w.db.applications.lookup a = some app → app.status = .active →
      app.tenantId = s.tenantId →
        (¬ s.closing ∧ a ∉ s.owned) ∨ (∃ p ∈ s.queue, w.db.owns s.tenantId p a) →
          (¬ b ∧ a ∉ s.owned) ∨ (∃ p ∈ q, w.db.owns s.tenantId p a) ∨
            x.Handles w.db a) :
    ({ w with
      txns := w.txns.insert i x
      scans := w.scans.insert j { s with queue := q, current := some i, closing := b } }
        : OwnerWorld).Upheld := by
  have hrunning := h.running j s hs
  refine ⟨h.contained, h.slack, fun k s' hs' ↦ ?_, fun k y j' hk hj' ↦ ?_⟩
  · change (w.scans.insert j _).lookup k = some s' at hs'
    rw [AList.lookup_insert'] at hs'
    split at hs'
    · rename_i hkj
      obtain rfl := Option.some.inj hs'
      refine ⟨hrunning.started, fun a app happ hactive htenant ↦ ?_, fun k' hk' ↦ ?_,
        fun hclosing' ↦ ⟨hclosing hclosing', rfl⟩⟩
      · refine (hrunning.covers a app happ hactive htenant).imp_right fun hpending ↦ ?_
        have hleft : (¬ s.closing ∧ a ∉ s.owned) ∨ ∃ p ∈ s.queue, w.db.owns s.tenantId p a := by
          rcases hpending with hread | hqueue | ⟨k', y, hk', -⟩
          · exact Or.inl hread
          · exact Or.inr hqueue
          · rw [hcurrent] at hk'
            cases hk'
        rcases hcovers a app happ hactive htenant hleft with hread | hqueue | hhandles
        · exact Or.inl hread
        · exact Or.inr (Or.inl hqueue)
        · exact Or.inr (Or.inr ⟨i, x, rfl, AList.lookup_insert _, hhandles⟩)
      · obtain rfl := Option.some.inj hk'
        exact ⟨x, AList.lookup_insert _, hkj ▸ hx, hof⟩
    · refine (h.running k s' hs').of_txns fun k' y _ hy _ ↦ ?_
      rw [AList.lookup_insert_ne ?_]
      · exact hy
      · rintro rfl
        exact hi (AList.mem_of_lookup hy)
  · change (w.txns.insert i x).lookup k = some y at hk
    rw [AList.lookup_insert'] at hk
    split at hk
    · rename_i hki
      obtain rfl := Option.some.inj hk
      obtain rfl := Option.some.inj (hx.symm.trans hj')
      exact ⟨_, AList.lookup_insert _, hki ▸ rfl⟩
    · obtain ⟨s', hs', hcurrent'⟩ := h.serves k y j' hk hj'
      refine ⟨s', ?_, hcurrent'⟩
      change (w.scans.insert j _).lookup j' = some s'
      rw [AList.lookup_insert_ne ?_]
      · exact hs'
      · rintro rfl
        exact not_mem_of_current h hs hcurrent hk hj'

theorem Upheld.spawned (h : w.Upheld) (hs : w.scans.lookup j = some s) (hcurrent : s.current = none)
    (hi : i ∉ w.txns) : (w.spawned j i s).Upheld := by
  unfold OwnerWorld.spawned
  split
  · rename_i hqueue
    have hspawn := h.spawn (q := s.queue) (b := true)
      (x := ⟨.containUnowned s.tenantId s.owned, .started, [], some j⟩) hs hcurrent hi rfl
      (Or.inr ⟨_, rfl⟩) (fun _ ↦ hqueue) ?_
    · exact hspawn
    · rintro a app - - - (⟨-, ha⟩ | ⟨p, hp, -⟩)
      · exact Or.inr (Or.inr ha)
      · rw [hqueue] at hp
        cases hp
  · rename_i owner queue hqueue
    have hopen : ¬ s.closing := by
      intro hclosing
      rw [((h.running j s hs).closing hclosing).1] at hqueue
      cases hqueue
    refine h.spawn (q := queue) (b := s.closing)
      (x := ⟨.recompute s.tenantId owner, .started, [], some j⟩) hs hcurrent hi rfl
      (Or.inl ⟨_, rfl⟩) (fun hclosing ↦ absurd hclosing hopen) ?_
    rintro a app - - - (hread | ⟨p, hp, howns⟩)
    · exact Or.inl hread
    · rw [hqueue] at hp
      rcases List.mem_cons.mp hp with rfl | hp
      · exact Or.inr (Or.inr howns)
      · exact Or.inr (Or.inl ⟨p, hp, howns⟩)

/-! ## The commit -/

section Commit

variable (h : w.Upheld) (hx : w.txns.lookup i = some x) (hfinished : x.finished)
  (hinsert : x.txn.insertable w.db) (hsound : x.Sound w.clock w.db)

include h hx hfinished hinsert hsound

/-- What a scan has still to look at after the commit, its own transaction apart. -/
theorem covers_committed (hs : w.scans.lookup j = some s) {a : Uuid} {app : Registry.Application}
    (happ : (x.view w.db).applications.lookup a = some app) (hactive : app.status = .active)
    (htenant : app.tenantId = s.tenantId) :
    (x.view w.db).activeOwner s.startedAt s.tenantId a ∨ (¬ s.closing ∧ a ∉ s.owned) ∨
      (∃ p ∈ s.queue, (x.view w.db).owns s.tenantId p a) ∨
      ∃ k y, s.current = some k ∧ k ≠ i ∧ w.txns.lookup k = some y ∧
        y.Handles (x.view w.db) a := by
  have hrunning := h.running j s hs
  obtain ⟨ha, ⟨app₀, happ₀, hactive₀, htenant₀, hkeep⟩ | hnow⟩ :=
    OpenTxn.covered_view hsound hinsert hrunning.started happ hactive
  · rw [htenant] at htenant₀ hkeep
    rcases hrunning.covers a app₀ happ₀ hactive₀ htenant₀ with
      howner | hread | ⟨p, hp, howns⟩ | ⟨k, y, hk, hy, hhandles⟩
    · exact Or.inl (hkeep howner)
    · exact Or.inr (Or.inl hread)
    · exact Or.inr (Or.inr (Or.inl ⟨p, hp, OpenTxn.owns_view hinsert howns⟩))
    · by_cases hki : k = i
      · obtain rfl := Option.some.inj (hx.symm.trans (hki ▸ hy))
        exfalso
        unfold OpenTxn.finished at hfinished
        unfold OpenTxn.Handles at hhandles
        split at hfinished
        · rename_i hstage
          rw [hstage] at hhandles
          exact hhandles.elim List.not_mem_nil ha
        · cases hfinished
      · exact Or.inr (Or.inr (Or.inr ⟨k, y, hk, hki, hy,
          hhandles.mono fun t p ↦ OpenTxn.owns_view hinsert⟩))
  · rw [htenant] at hnow
    exact Or.inl (activeOwner_earlier hnow hrunning.started)

omit hx hfinished in
theorem contained_committed {a : Uuid} {app : Registry.Application}
    (happ : (x.view w.db).applications.lookup a = some app) (hactive : app.status = .active) :
    (x.view w.db).activeOwner (w.scannedAt app.tenantId) app.tenantId a := by
  obtain ⟨-, ⟨app₀, happ₀, hactive₀, htenant₀, hkeep⟩ | hnow⟩ :=
    OpenTxn.covered_view hsound hinsert (h.slack app.tenantId) happ hactive
  · exact hkeep (htenant₀ ▸ h.contained a app₀ happ₀ hactive₀)
  · exact activeOwner_earlier hnow (h.slack _)

/-- A scan which the transaction does not belong to goes on. -/
theorem running_committed (hs : w.scans.lookup j = some s) (hother : x.scan ≠ some j)
    {scans : Table ℕ Scan} {scannedAt : Uuid → Timestamp} :
    (OwnerWorld.mk (x.view w.db) w.clock (w.txns.erase i) scans scannedAt).Running j s := by
  have hrunning := h.running j s hs
  refine ⟨hrunning.started, fun a app happ hactive htenant ↦ ?_, fun k hk ↦ ?_, hrunning.closing⟩
  · refine (covers_committed h hx hfinished hinsert hsound hs happ hactive htenant).imp_right ?_
    rintro (hread | hqueue | ⟨k, y, hk, hki, hy, hhandles⟩)
    · exact Or.inl hread
    · exact Or.inr (Or.inl hqueue)
    · refine Or.inr (Or.inr ⟨k, y, hk, ?_, hhandles⟩)
      change (w.txns.erase i).lookup k = some y
      rw [AList.lookup_erase_ne hki]
      exact hy
  · obtain ⟨y, hy, hscan, hof⟩ := hrunning.current k hk
    refine ⟨y, ?_, hscan, hof⟩
    change (w.txns.erase i).lookup k = some y
    rw [AList.lookup_erase_ne ?_]
    · exact hy
    · rintro rfl
      obtain rfl := Option.some.inj (hx.symm.trans hy)
      exact hother hscan

/-- The scan of the transaction has nothing else under way. -/
theorem covers_served (hs : w.scans.lookup j = some s) (hcurrent : s.current = some i) {a : Uuid}
    {app : Registry.Application} (happ : (x.view w.db).applications.lookup a = some app)
    (hactive : app.status = .active) (htenant : app.tenantId = s.tenantId) :
    (x.view w.db).activeOwner s.startedAt s.tenantId a ∨ (¬ s.closing ∧ a ∉ s.owned) ∨
      ∃ p ∈ s.queue, (x.view w.db).owns s.tenantId p a := by
  rcases covers_committed h hx hfinished hinsert hsound hs happ hactive htenant with
    howner | hread | hqueue | ⟨k, y, hk, hki, -⟩
  · exact Or.inl howner
  · exact Or.inr (Or.inl hread)
  · exact Or.inr (Or.inr hqueue)
  · exact absurd (Option.some.inj (hk.symm.trans hcurrent)) hki

/-- After the last transaction of a scan every active application of the tenant has an owner who
was in force when the scan began. -/
theorem covers_closed (hs : w.scans.lookup j = some s) (hcurrent : s.current = some i)
    (hclosing : s.closing) {a : Uuid} {app : Registry.Application}
    (happ : (x.view w.db).applications.lookup a = some app)
    (hactive : app.status = .active) (htenant : app.tenantId = s.tenantId) :
    (x.view w.db).activeOwner s.startedAt s.tenantId a := by
  rcases covers_served h hx hfinished hinsert hsound hs hcurrent happ hactive htenant with
    howner | ⟨hopen, -⟩ | ⟨p, hp, -⟩
  · exact howner
  · exact absurd hclosing hopen
  · rw [((h.running j s hs).closing hclosing).1] at hp
    cases hp

theorem Upheld.commit :
    (({ w with db := x.view w.db, txns := w.txns.erase i } : OwnerWorld).returned x.scan).Upheld := by
  have hserves : ∀ {k y j}, (w.txns.erase i).lookup k = some y → y.scan = some j →
      k ≠ i ∧ ∃ s, w.scans.lookup j = some s ∧ s.current = some k := by
    intro k y j hk hj
    by_cases hki : k = i
    · rw [hki, AList.lookup_erase] at hk
      cases hk
    · rw [AList.lookup_erase_ne hki] at hk
      exact ⟨hki, h.serves k y j hk hj⟩
  have hcontained : ∀ a app, (x.view w.db).applications.lookup a = some app → app.status = .active →
      (x.view w.db).activeOwner (w.scannedAt app.tenantId) app.tenantId a :=
    fun a app happ hactive ↦ contained_committed h hinsert hsound happ hactive
  cases hscan : x.scan with
  | none =>
      refine ⟨hcontained, h.slack, fun j s hs ↦ ?_, fun k y j hk hj ↦ (hserves hk hj).2⟩
      refine running_committed h hx hfinished hinsert hsound hs ?_
      rw [hscan]
      simp
  | some j =>
      obtain ⟨s, hs, hcurrent⟩ := h.serves i x j hx hscan
      have hbind : ((some j).bind fun k ↦ (w.scans.lookup k).map (k, ·)) = some (j, s) := by
        rw [Option.bind_some, hs, Option.map_some]
      unfold OwnerWorld.returned
      simp only [hbind]
      split
      · rename_i hclosing
        refine ⟨fun a app happ hactive ↦ ?_, fun t ↦ ?_, fun k s' hs' ↦ ?_, fun k y j' hk hj' ↦ ?_⟩
        · dsimp only
          split
          · rename_i htenant
            rw [htenant]
            have howner := hcontained a app happ hactive
            rw [htenant] at howner
            rcases max_choice (w.scannedAt s.tenantId) s.startedAt with hmax | hmax
            · rw [hmax]
              exact howner
            · rw [hmax]
              exact covers_closed h hx hfinished hinsert hsound hs hcurrent hclosing happ hactive
                htenant
          · exact hcontained a app happ hactive
        · dsimp only
          split
          · exact max_le (h.slack t) (h.running j s hs).started
          · exact h.slack t
        · change (w.scans.erase j).lookup k = some s' at hs'
          by_cases hkj : k = j
          · rw [hkj, AList.lookup_erase] at hs'
            cases hs'
          · rw [AList.lookup_erase_ne hkj] at hs'
            refine running_committed h hx hfinished hinsert hsound hs' ?_
            rw [hscan]
            exact fun heq ↦ hkj (Option.some.inj heq).symm
        · obtain ⟨hki, s', hs', hcurrent'⟩ := hserves hk hj'
          refine ⟨s', ?_, hcurrent'⟩
          change (w.scans.erase j).lookup j' = some s'
          rw [AList.lookup_erase_ne ?_]
          · exact hs'
          · rintro rfl
            obtain rfl := Option.some.inj (hs.symm.trans hs')
            exact hki (Option.some.inj (hcurrent'.symm.trans hcurrent))
      · rename_i hopen
        refine ⟨hcontained, h.slack, fun k s' hs' ↦ ?_, fun k y j' hk hj' ↦ ?_⟩
        · change (w.scans.insert j _).lookup k = some s' at hs'
          rw [AList.lookup_insert'] at hs'
          split at hs'
          · obtain rfl := Option.some.inj hs'
            refine ⟨(h.running j s hs).started, fun a app happ hactive htenant ↦ ?_,
              fun k' hk' ↦ (by cases hk'), fun hclosing ↦ absurd hclosing hopen⟩
            refine (covers_served h hx hfinished hinsert hsound hs hcurrent happ hactive
              htenant).imp_right ?_
            rintro (hread | hqueue)
            · exact Or.inl hread
            · exact Or.inr (Or.inl hqueue)
          · rename_i hkj
            refine running_committed h hx hfinished hinsert hsound hs' ?_
            rw [hscan]
            exact fun heq ↦ hkj (Option.some.inj heq).symm
        · obtain ⟨hki, s', hs', hcurrent'⟩ := hserves hk hj'
          refine ⟨s', ?_, hcurrent'⟩
          change (w.scans.insert j _).lookup j' = some s'
          rw [AList.lookup_insert_ne ?_]
          · exact hs'
          · rintro rfl
            obtain rfl := Option.some.inj (hs.symm.trans hs')
            exact hki (Option.some.inj (hcurrent'.symm.trans hcurrent))

end Commit

/-- Every step keeps the invariant, a commit when it is sound. -/
theorem Upheld.step {c : OwnerCmd} (h : w.Upheld) (hsound : w.Sound c) (hexec : exec c w = .ok w') :
    w'.Upheld := by
  cases c with
  | tick now =>
      rw [exec] at hexec
      split at hexec
      · cases hexec
        exact h.tick ‹_›
      · cases hexec
  | begin i t =>
      rw [exec] at hexec
      split at hexec
      · rename_i hbegins
        cases hexec
        exact h.begin hbegins.1 rfl
      · cases hexec
  | next i =>
      rw [exec] at hexec
      split at hexec
      · cases hexec
      · rename_i x hx
        split at hexec
        · cases hexec
          exact h.next hx
        · cases hexec
  | commit i =>
      rw [exec] at hexec
      split at hexec
      · cases hexec
      · rename_i x hx
        split at hexec
        · rename_i hready
          cases hexec
          exact h.commit hx hready.1 hready.2 (hsound x hx)
        · cases hexec
  | abort i =>
      rw [exec] at hexec
      split at hexec
      · cases hexec
      · rename_i x hx
        cases hexec
        exact h.abort hx
  | startScan j t =>
      rw [exec] at hexec
      split at hexec
      · cases hexec
      · rename_i hj
        cases hexec
        exact h.startScan hj
  | nextScan j i =>
      rw [exec] at hexec
      split at hexec
      · cases hexec
      · rename_i s hs
        split at hexec
        · cases hexec
        · rename_i hnot
          obtain ⟨hcurrent, hi⟩ := not_or.mp hnot
          rw [Option.isSome_iff_ne_none, not_not] at hcurrent
          split at hexec
          · cases hexec
            exact h.spawned hs hcurrent hi
          · cases hexec
            exact h.read hs hcurrent rfl

end OwnerWorld

namespace OwnerWorld

variable {w w' : OwnerWorld} {cs : List OwnerCmd}

/-- Nothing is under way, and the state is in order. -/
structure Orderly (w : OwnerWorld) : Prop where
  idle : w.txns = ∅ ∧ w.scans = ∅
  contained : w.Contained
  slack : ∀ t, w.scannedAt t ≤ w.clock
  enabled : w.db.Enabled

namespace OwnerSample

def user (email : String) : User := ⟨email, email, none, none, email, .active, none⟩

/-- One application and its two owners. -/
def shop : Registry :=
  { Registry.empty with
    users := ((∅ : Table Uuid User).insert 20 (user "ann@example.com")).insert 21
      (user "ben@example.com")
    principals := ((∅ : Table Uuid Principal).insert 8 ⟨1, .user, true⟩).insert 9 ⟨1, .user, true⟩
    memberships := ((∅ : Table Uuid Membership).insert 110 ⟨1, 20, 8, .active, 1, none⟩).insert 111
      ⟨1, 21, 9, .active, 1, none⟩
    applications := (∅ : Table Uuid Registry.Application).insert 5 ⟨1, .active, 1⟩
    owners := ((∅ : Table Uuid ApplicationOwner).insert 30 ⟨1, 5, 8⟩).insert 31 ⟨1, 5, 9⟩ }

def start : OwnerWorld := ⟨shop, 10, ∅, ∅, fun _ ↦ 0⟩

def suspension (membershipId : Uuid) : OwnerTxn :=
  .updateMember 10 1 membershipId .suspended "left" 40

/-- A suspension looks at the application and commits. -/
def alone : List OwnerCmd :=
  [.begin 1 (suspension 110), .next 1, .next 1, .commit 1]

theorem lookup_membership {k : Uuid} {m : Membership} (h : shop.memberships.lookup k = some m) :
    k = 110 ∧ m = ⟨1, 20, 8, .active, 1, none⟩ ∨ k = 111 ∧ m = ⟨1, 21, 9, .active, 1, none⟩ := by
  change (((∅ : Table Uuid Membership).insert 110 _).insert 111 _).lookup k = some m at h
  rw [AList.lookup_insert', AList.lookup_insert'] at h
  split at h
  · exact Or.inr ⟨‹_›, (Option.some.inj h).symm⟩
  · split at h
    · exact Or.inl ⟨‹_›, (Option.some.inj h).symm⟩
    · cases h

theorem lookup_application {a : Uuid} {app : Registry.Application}
    (h : shop.applications.lookup a = some app) : a = 5 ∧ app = ⟨1, .active, 1⟩ := by
  change ((∅ : Table Uuid Registry.Application).insert 5 _).lookup a = some app at h
  rw [AList.lookup_insert'] at h
  split at h
  · exact ⟨‹_›, (Option.some.inj h).symm⟩
  · cases h

theorem orderly : start.Orderly := by
  refine ⟨⟨rfl, rfl⟩, fun a app happ _ ↦ ?_, fun _ ↦ (show (0 : Timestamp) ≤ 10 by decide),
    fun k m hm _ ↦ ?_,
    fun k k' m m' hm hm' heq ↦ ?_⟩
  · obtain ⟨rfl, rfl⟩ := lookup_application happ
    decide
  · rcases lookup_membership hm with ⟨-, rfl⟩ | ⟨-, rfl⟩
    · exact ⟨⟨1, .user, true⟩, rfl, rfl, rfl⟩
    · exact ⟨⟨1, .user, true⟩, rfl, rfl, rfl⟩
  · rcases lookup_membership hm with ⟨-, rfl⟩ | ⟨-, rfl⟩ <;>
      rcases lookup_membership hm' with ⟨-, rfl⟩ | ⟨-, rfl⟩
    · rfl
    · cases heq
    · cases heq
    · rfl

/-- The other owner is in force when the suspension commits. -/
theorem othersRemain : OthersRemain 10 (· = 8) [] shop := by
  intro a app happ _ _ p hp _
  obtain ⟨rfl, rfl⟩ := lookup_application happ
  exact ⟨9, by decide, by decide, by decide⟩

theorem sound : Meets exec Sound start alone := by
  refine ⟨trivial, trivial, trivial, fun x hx ↦ ?_, trivial⟩
  have hcommitted : x = ⟨suspension 110, .checking [], [], none⟩ := Option.some.inj (hx.symm.trans rfl)
  subst hcommitted
  intro m hm
  rcases lookup_membership hm with ⟨-, rfl⟩ | ⟨hk, -⟩
  · exact othersRemain
  · cases hk

end OwnerSample

end OwnerWorld

end S3mp
