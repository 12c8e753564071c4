import S3mp.Knowledge.Delivery

/-!
# Steps of a handler

Everything one step of the receiver can do.  A step which goes on lowers the rank of the stage,
so the handler of a delivery comes to an end.
-/

namespace S3mp.Knowledge

open Relational Messaging Transition

variable {maxRetries : ℕ} {tag : Uuid} {h : AnalysisHandler} {taskId : Uuid} {c : ReceiverChoice}

/-- The number of steps that may follow. -/
@[simp] def ReceiverStage.rank : ReceiverStage → ℕ
  | .received => 6
  | .executing => 5
  | .executed .. => 4
  | .retrying _ => 3
  | .deadLettering _ | .opening _ => 2
  | .publishing _ => 1
  | .leaving _ => 0

namespace AnalysisSystem

variable {s s' : AnalysisSystem}

/-! ## Publications -/

theorem send_cases {publication : Publication} {messageId : Uuid} {body : Option Uuid}
    {place : Place Uuid} (hok : s.send publication messageId body place = .ok s') :
    (publication ≠ .confirmed ∧ s' = s) ∨
      (messageId ∉ s.broker.messages ∧ s' = s.onBroker (·.put messageId body place)) := by
  unfold send at hok
  split at hok
  · rename_i hrefused
    refine Or.inl ⟨?_, (Except.ok.inj hok).symm⟩
    rw [hrefused]
    nofun
  · split at hok
    · cases hok
    · exact Or.inr ⟨‹_›, (Except.ok.inj hok).symm⟩

/-! ## The handler -/

/-- The task is not in a state in which it can be settled as its execution ended. -/
def Unsettled (s : AnalysisSystem) (h : AnalysisHandler) (taskId : Uuid) : Prop :=
  ∃ status reason state task, h.stage = .executed status reason ∧ status.settles = some state ∧
    s.db.tasks.lookup taskId = some task ∧ task.state.terminal = false ∧
    state ∉ task.state.transitions

inductive Handled (s : AnalysisSystem) (maxRetries : ℕ) (tag : Uuid) (h : AnalysisHandler)
    (taskId : Uuid) (c : ReceiverChoice) : AnalysisSystem → Prop where
  | escape (hescapes : h.stage.escapes c ∨ s.Unsettled h taskId) :
      Handled s maxRetries tag h taskId c (s.onBroker (·.drop tag))
  | goOn (db : KnowledgeDb) (stage : ReceiverStage) (hrank : stage.rank < h.stage.rank)
      (hdb : HandsOver s.db db)
      (hkeeps : ∀ task, db.tasks.lookup taskId = some task → task.state = .queued →
        h.stage.keepsMessage → stage.keepsMessage) :
      Handled s maxRetries tag h taskId c (s.enter tag h db stage)
  | requeue (reason : String) (task : AnalysisTask) (hstage : h.stage = .retrying reason)
      (hraises : c.raises = false) (htask : s.db.tasks.lookup taskId = some task)
      (hprocessing : task.state = .processing) (hattempts : task.attemptCount < maxRetries) :
      Handled s maxRetries tag h taskId c
        (s.enter tag h (s.db.updateTask taskId fun _ ↦ task.requeued reason)
          (.opening task.attemptCount))
  | giveBack (attemptCount : ℕ) (s₁ : AnalysisSystem) (place : Place Uuid)
      (hplace : ∀ tag, place ≠ .unacked tag) (hstage : h.stage = .publishing attemptCount)
      (hsend : s.send c.publication c.fresh h.body place = .ok s₁) :
      Handled s maxRetries tag h taskId c (s₁.enter tag h s₁.db (.leaving .requeue))
  | handOn (attemptCount : ℕ) (place : Place Uuid) (hplace : ∀ tag, place ≠ .unacked tag)
      (hstage : h.stage = .publishing attemptCount) (hnew : c.fresh ∉ s.broker.messages) :
      Handled s maxRetries tag h taskId c
        ((s.onBroker (·.put c.fresh h.body place)).enter tag h s.db (.leaving .ack))
  | escapeClosing (attemptCount : ℕ) (place : Place Uuid) (hplace : ∀ tag, place ≠ .unacked tag)
      (hstage : h.stage = .publishing attemptCount) (hnew : c.fresh ∉ s.broker.messages)
      (hescapes : h.stage.escapes c) :
      Handled s maxRetries tag h taskId c
        ((s.onBroker (·.put c.fresh h.body place)).onBroker (·.drop tag))
  | leave (disposal : Disposal) (hstage : h.stage = .leaving disposal) :
      Handled s maxRetries tag h taskId c (s.onBroker (·.leave tag h disposal))

theorem settle_handled {status : ExecutionStatus} {reason : Option String} {state : TaskState}
    (hstage : h.stage = .executed status reason) (hsettles : status.settles = some state)
    (hterminal : state.terminal)
    (hok : (match settleTask c.now taskId state reason s.db with
      | .ok db => Except.ok (s.enter tag h db (.leaving .ack))
      | .error _ => Except.ok (s.onBroker (·.drop tag))) = (.ok s' : Tx AnalysisSystem)) :
    Handled s maxRetries tag h taskId c s' := by
  split at hok
  · rename_i db hdb
    obtain rfl := Except.ok.inj hok
    refine .goOn db _ (by simp [hstage]) (settleTask_handsOver hterminal hdb) ?_
    rw [hstage]
    exact fun _ _ _ hkept ↦ nomatch hkept
  · rename_i e herror
    obtain rfl := Except.ok.inj hok
    obtain ⟨task, htask, hopen, hrefused⟩ := settleTask_eq_error herror
    exact .escape (Or.inr ⟨status, reason, state, task, hstage, hsettles, htask, hopen, hrefused⟩)

theorem retrying_handled {reason : String} (hstage : h.stage = .retrying reason)
    (hraises : c.raises = false)
    (hok : (match scheduleRetry c.now taskId reason maxRetries s.db with
      | (none, db) => Except.ok (s.enter tag h db (.leaving .ack))
      | (some task, db) =>
        if task.state = .deadLettered then Except.ok (s.enter tag h db (.deadLettering reason))
        else Except.ok (s.enter tag h db (.opening task.attemptCount))) = (.ok s' : Tx _)) :
    Handled s maxRetries tag h taskId c s' := by
  have hdiscarded : h.stage.keepsMessage = false := by rw [hstage]; rfl
  split at hok
  · rename_i db hretry
    obtain rfl := Except.ok.inj hok
    rcases scheduleRetry_cases hretry with ⟨-, rfl, -⟩ | ⟨task, -, -, ⟨-, hout, -⟩ | ⟨-, hout, -⟩⟩
    · refine .goOn _ _ (by simp [hstage]) (.refl _) ?_
      rw [hdiscarded]
      exact fun _ _ _ hkept ↦ nomatch hkept
    · cases hout
    · cases hout
  · rename_i out db hretry
    rcases scheduleRetry_cases hretry with ⟨hout, -⟩ |
      ⟨task, htask, hprocessing, ⟨-, hout, rfl⟩ | ⟨hattempts, hout, rfl⟩⟩
    · cases hout
    · obtain rfl := Option.some.inj hout
      obtain rfl := Except.ok.inj ((if_pos rfl).symm.trans hok)
      refine .goOn _ _ (by simp [hstage]) (handsOver_updateTask
        (fun _ _ hstate ↦ nomatch hstate) fun _ _ hstate ↦ nomatch hstate) ?_
      rw [hdiscarded]
      exact fun _ _ _ hkept ↦ nomatch hkept
    · obtain rfl := Option.some.inj hout
      obtain rfl := Except.ok.inj ((if_neg (fun hstate ↦ nomatch hstate)).symm.trans hok)
      exact .requeue reason task hstage hraises htask hprocessing hattempts

theorem handleTask_handled (hok : s.handleTask maxRetries tag h taskId c = .ok s') :
    Handled s maxRetries tag h taskId c s' := by
  -- A stage which does not keep the message has nothing to keep in the next one.
  have hvacuous : ∀ {stage}, h.stage.keepsMessage = false →
      (h.stage.keepsMessage = true → ReceiverStage.keepsMessage stage = true) :=
    fun hdiscarded hkept ↦ nomatch hdiscarded.symm.trans hkept
  unfold handleTask at hok
  cases hstage : h.stage with
  | received =>
      simp only [hstage] at hok
      split at hok
      · rename_i hraises
        obtain rfl := Except.ok.inj hok
        exact .escape (Or.inl (by rw [hstage]; exact hraises))
      split at hok
      · rename_i db hclaim
        obtain rfl := Except.ok.inj hok
        refine .goOn _ _ (by simp [hstage]) (claimTask_handsOver hclaim) ?_
        rcases claimTask_cases hclaim with ⟨-, rfl, hstate⟩ | ⟨task, -, -, hout, -⟩
        · exact fun task htask hqueued _ ↦ absurd hqueued (hstate task htask)
        · cases hout
      · rename_i claimed db hclaim
        obtain rfl := Except.ok.inj hok
        refine .goOn _ _ (by simp [hstage]) (claimTask_handsOver hclaim) ?_
        rcases claimTask_cases hclaim with ⟨hout, -⟩ | ⟨task, htask, -, -, rfl⟩
        · cases hout
        · intro task' htask' hqueued
          rw [KnowledgeDb.lookup_updateTask, if_pos rfl, htask] at htask'
          obtain rfl := Option.some.inj htask'
          cases hqueued
  | executing =>
      simp only [hstage] at hok
      split at hok
      all_goals
        obtain rfl := Except.ok.inj hok
        refine .goOn _ _ (by simp [hstage]) (.refl _) fun _ _ _ ↦ ?_
        exact hvacuous (by rw [hstage]; rfl)
  | executed status reason =>
      cases status with
      | completed =>
          simp only [hstage] at hok
          split at hok
          · rename_i hraises
            obtain rfl := Except.ok.inj hok
            exact .escape (Or.inl (by rw [hstage]; exact hraises))
          · exact settle_handled hstage rfl rfl hok
      | skipped =>
          simp only [hstage] at hok
          split at hok
          · rename_i hraises
            obtain rfl := Except.ok.inj hok
            exact .escape (Or.inl (by rw [hstage]; exact hraises))
          · exact settle_handled hstage rfl rfl hok
      | other =>
          simp only [hstage] at hok
          obtain rfl := Except.ok.inj hok
          refine .goOn _ _ (by simp [hstage]) (.refl _) fun _ _ _ ↦ ?_
          exact hvacuous (by rw [hstage]; rfl)
  | retrying reason =>
      simp only [hstage] at hok
      split at hok
      · rename_i hraises
        obtain rfl := Except.ok.inj hok
        exact .escape (Or.inl (by rw [hstage]; exact hraises))
      · rename_i hraises
        exact retrying_handled hstage (Bool.not_eq_true _ ▸ hraises) hok
  | deadLettering reason =>
      simp only [hstage] at hok
      split at hok
      · rename_i hraises
        obtain rfl := Except.ok.inj hok
        exact .escape (Or.inl (by rw [hstage]; exact hraises))
      · obtain ⟨db, hdb, rfl⟩ := Except.map_eq_ok.mp hok
        refine .goOn _ _ (by simp [hstage]) (recordDeadLetter_handsOver hdb) fun _ _ _ ↦ ?_
        exact hvacuous (by rw [hstage]; rfl)
  | opening attemptCount =>
      simp only [hstage] at hok
      split at hok
      · rename_i hraises
        obtain rfl := Except.ok.inj hok
        exact .escape (Or.inl (by rw [hstage]; exact hraises))
      · obtain rfl := Except.ok.inj hok
        exact .goOn _ _ (by simp [hstage]) (.refl _) fun _ _ _ _ ↦ rfl
  | publishing attemptCount =>
      simp only [hstage] at hok
      obtain ⟨s₁, hsend, hs'⟩ := Except.map_eq_ok.mp hok
      have hplace : ∀ tag : Uuid, Place.delayed (retryRoutingKey attemptCount) ≠ .unacked tag :=
        fun _ hplace ↦ nomatch hplace
      split at hs'
      · subst hs'
        exact .giveBack attemptCount s₁ _ hplace hstage hsend
      rename_i hconfirmed
      rcases send_cases hsend with ⟨hrefused, -⟩ | ⟨hnew, rfl⟩
      · exact absurd hrefused hconfirmed
      split at hs'
      · rename_i hraises
        subst hs'
        refine .escapeClosing attemptCount _ hplace hstage hnew ?_
        rw [hstage]
        exact Bool.and_eq_true_iff.mpr ⟨hraises, decide_eq_true (not_not.mp hconfirmed)⟩
      · subst hs'
        exact .handOn attemptCount _ hplace hstage hnew
  | leaving disposal =>
      simp only [hstage] at hok
      obtain rfl := Except.ok.inj hok
      exact .leave disposal hstage

/-- What a handler does with a message it cannot parse, or with the task of its message. -/
theorem handle_cases (hh : s.broker.handlers.lookup tag = some h)
    (hok : s.handle maxRetries tag c = .ok s') :
    (∃ taskId, h.body = some taskId ∧ Handled s maxRetries tag h taskId c s') ∨
      (h.body = none ∧
        ((∃ disposal, h.stage = .leaving disposal ∧ s' = s.onBroker (·.leave tag h disposal)) ∨
          (0 < h.stage.rank ∧ s' = s.enter tag h s.db (.leaving .reject)))) := by
  unfold handle at hok
  rw [hh] at hok
  cases hbody : h.body with
  | some taskId =>
      simp only [hbody] at hok
      exact Or.inl ⟨taskId, rfl, handleTask_handled hok⟩
  | none =>
      simp only [hbody] at hok
      refine Or.inr ⟨rfl, ?_⟩
      split at hok
      · exact Or.inl ⟨_, ‹_›, (Except.ok.inj hok).symm⟩
      · rename_i hstage
        refine Or.inr ⟨?_, (Except.ok.inj hok).symm⟩
        cases hcase : h.stage with
        | leaving disposal => exact absurd hcase (hstage disposal)
        | _ => exact Nat.succ_pos _

/-! ## The end of a delivery -/

/-- No handler stays where it is. -/
def Advances (maxRetries : ℕ) (s : AnalysisSystem) : Prop :=
  ∀ tag h c s', s.broker.handlers.lookup tag = some h → s.handle maxRetries tag c = .ok s' →
    tag ∉ s'.broker.handlers ∨ ∃ h', s'.broker.handlers.lookup tag = some h' ∧
      h'.stage.rank < h.stage.rank

theorem advances_of_enter {db : KnowledgeDb} {stage : ReceiverStage}
    (hrank : stage.rank < h.stage.rank) :
    ∃ h', (s.enter tag h db stage).broker.handlers.lookup tag = some h' ∧
      h'.stage.rank < h.stage.rank :=
  ⟨{ h with stage }, AList.lookup_insert _, hrank⟩

theorem advances (maxRetries : ℕ) (s : AnalysisSystem) : s.Advances maxRetries := by
  intro tag h c s' hh hok
  have hdropped : ∀ s : AnalysisSystem, tag ∉ (s.onBroker (·.drop tag)).broker.handlers :=
    fun s hmem ↦ absurd hmem (by simp [onBroker, Broker.drop])
  have hleft : ∀ disposal, tag ∉ (s.onBroker (·.leave tag h disposal)).broker.handlers := by
    intro disposal
    change tag ∉ (s.broker.leave tag h disposal).handlers
    rw [Broker.leave_handlers]
    simp
  rcases handle_cases hh hok with ⟨taskId, -, hhandled⟩ | ⟨-, ⟨disposal, -, rfl⟩ | ⟨hrank, rfl⟩⟩
  · cases hhandled with
    | escape => exact Or.inl (hdropped s)
    | goOn db stage hrank => exact Or.inr (advances_of_enter hrank)
    | requeue reason task hstage => exact Or.inr (advances_of_enter (by simp [hstage]))
    | giveBack attemptCount s₁ place hplace hstage =>
        exact Or.inr (advances_of_enter (by simp [hstage]))
    | handOn attemptCount place hplace hstage =>
        exact Or.inr (advances_of_enter (by simp [hstage]))
    | escapeClosing => exact Or.inl (hdropped _)
    | leave disposal => exact Or.inl (hleft disposal)
  · exact Or.inl (hleft disposal)
  · exact Or.inr (advances_of_enter hrank)

end AnalysisSystem

end S3mp.Knowledge
