import Mathlib.Data.List.Infix
import Mathlib.Data.List.Perm.Basic
import Shardd.Lib.Map

/-!
# Quorum acknowledgements (`libs/broadcast/src/libp2p.rs`)

The part of the swarm loop that asks every connected peer for an acknowledgement and answers the
write that waits for them: `RequestAcks`, the responses and failures of the outbound requests, and
the timeout sweep.  A request is filed as a group, and each outbound request leads to its group
until it is answered; groups and outbound requests are taken off at different times.

A group is described exactly by what has come in since its request: its counts are those of the
peers' first answers, and it is gone, with one `AckInfo` sent, from the moment on at which its
request is complete.
-/

namespace Shardd

structure AckInfo where
  received : ℕ
  requested : ℕ
  timeout : Bool
  deriving DecidableEq, Repr

structure PendingAck where
  minAcks : ℕ
  received : ℕ
  outstanding : ℕ
  /-- The channel of the write that waits. -/
  replyTx : Option ℕ
  deadline : ℕ

def PendingAck.info (p : PendingAck) : AckInfo where
  received := p.received
  requested := p.minAcks
  timeout := decide (p.received < p.minAcks)

/-- A `RequestAcks` command as the loop meets it.  `requestIds` are the ids the swarm gives to the
outbound requests, one for each connected peer; `deadline` is the present time and the timeout.
`broadcast_event` sends the command only when `min_acks` is positive. -/
structure AckRequest where
  replyTx : ℕ
  minAcks : ℕ
  deadline : ℕ
  requestIds : List ℕ
  requestIds_nodup : requestIds.Nodup
  minAcks_pos : 0 < minAcks

/-- The loop's maps, and what it has sent to which channel. -/
structure SwarmState where
  reqToGroup : Map ℕ ℕ
  pendingGroups : Map ℕ PendingAck
  nextGroupId : ℕ
  sent : List (ℕ × AckInfo)

namespace SwarmState

def initial : SwarmState where
  reqToGroup := fun _ => none
  pendingGroups := fun _ => none
  nextGroupId := 0
  sent := []

variable (s : SwarmState)

/-- Take the reply channel of a group, answer, and remove the group. -/
def finish (groupId : ℕ) (p : PendingAck) : SwarmState :=
  { s with
    pendingGroups := s.pendingGroups.remove groupId
    sent := s.sent ++ (p.replyTx.map fun tx => (tx, p.info)).toList }

def requestAcks (req : AckRequest) : SwarmState :=
  if req.requestIds = [] then
    { s with
      sent := s.sent ++
        [(req.replyTx, { received := 0, requested := req.minAcks, timeout := true })] }
  else
    { s with
      nextGroupId := s.nextGroupId + 1
      pendingGroups := s.pendingGroups.insert s.nextGroupId
        { minAcks := req.minAcks, received := 0, outstanding := req.requestIds.length
          replyTx := some req.replyTx, deadline := req.deadline }
      reqToGroup := req.requestIds.foldl (fun m id => m.insert id s.nextGroupId) s.reqToGroup }

/-- An outbound request is taken off, and its group, if it is still there, is updated and finished
when it is done. -/
def settle (requestId : ℕ) (update : PendingAck → PendingAck) (done : PendingAck → Bool) :
    SwarmState :=
  match s.reqToGroup requestId with
  | none => s
  | some groupId =>
      let s' := { s with reqToGroup := s.reqToGroup.remove requestId }
      match s.pendingGroups groupId with
      | none => s'
      | some p =>
          if done (update p) then s'.finish groupId (update p)
          else { s' with pendingGroups := s.pendingGroups.insert groupId (update p) }

def response (requestId : ℕ) (inserted : Bool) : SwarmState :=
  s.settle requestId
    (fun p =>
      { p with
        received := if inserted then p.received + 1 else p.received
        outstanding := p.outstanding - 1 })
    fun p => decide (p.minAcks ≤ p.received) || decide (p.outstanding = 0)

def outboundFailure (requestId : ℕ) : SwarmState :=
  s.settle requestId (fun p => { p with outstanding := p.outstanding - 1 })
    fun p => decide (p.outstanding = 0)

/-- The timeout sweep; `expired` are the ids of the groups whose deadline has passed. -/
def sweep (expired : List ℕ) : SwarmState :=
  expired.foldl (fun s groupId =>
    match s.pendingGroups groupId with
    | none => s
    | some p => s.finish groupId p) s

/-- What has been sent to a channel. -/
def sentTo (tx : ℕ) : List AckInfo := (s.sent.filter fun x => x.1 = tx).map Prod.snd

end SwarmState

/-! ## Runs of the loop -/

inductive SwarmInput
  | requestAcks (req : AckRequest)
  | response (requestId : ℕ) (inserted : Bool)
  | outboundFailure (requestId : ℕ)
  | sweep (now : ℕ)

/-- The loop has handled these inputs.  Every command brings its own channel, the swarm gives no id
twice, and a sweep meets the expired groups in whatever order. -/
inductive SwarmRun : List SwarmInput → SwarmState → Prop
  | start : SwarmRun [] .initial
  | requestAcks {ins : List SwarmInput} {s : SwarmState} {req : AckRequest} : SwarmRun ins s →
      (∀ req', .requestAcks req' ∈ ins →
        req'.replyTx ≠ req.replyTx ∧ ∀ id ∈ req.requestIds, id ∉ req'.requestIds) →
      SwarmRun (ins ++ [.requestAcks req]) (s.requestAcks req)
  | response {ins : List SwarmInput} {s : SwarmState} (requestId : ℕ) (inserted : Bool) :
      SwarmRun ins s →
      SwarmRun (ins ++ [.response requestId inserted]) (s.response requestId inserted)
  | outboundFailure {ins : List SwarmInput} {s : SwarmState} (requestId : ℕ) : SwarmRun ins s →
      SwarmRun (ins ++ [.outboundFailure requestId]) (s.outboundFailure requestId)
  | sweep {ins : List SwarmInput} {s : SwarmState} (now : ℕ) {expired : List ℕ} :
      SwarmRun ins s → expired.Nodup →
      (∀ groupId, groupId ∈ expired ↔
        ∃ p, s.pendingGroups groupId = some p ∧ p.deadline ≤ now) →
      SwarmRun (ins ++ [.sweep now]) (s.sweep expired)

/-! ## What a request is to be answered -/

/-- Whether the input answers this outbound request, and how. -/
def SwarmInput.answerTo (id : ℕ) : SwarmInput → Option Bool
  | .response requestId inserted => if requestId = id then some inserted else none
  | .outboundFailure requestId => if requestId = id then some false else none
  | .requestAcks _ | .sweep _ => none

def SwarmInput.passes (deadline : ℕ) : SwarmInput → Bool
  | .sweep now => decide (deadline ≤ now)
  | _ => false

/-- The first answer to an outbound request; the others come late. -/
def firstAnswer (ins : List SwarmInput) (id : ℕ) : Option Bool :=
  ins.findSome? (SwarmInput.answerTo id)

namespace AckRequest

variable (req : AckRequest) (ins : List SwarmInput)

/-- The positive acknowledgements among these inputs. -/
def positives : ℕ := req.requestIds.countP fun id => firstAnswer ins id = some true

/-- The outbound requests that these inputs leave unanswered. -/
def unanswered : List ℕ := req.requestIds.filter fun id => (firstAnswer ins id).isNone

/-- All peers have answered or failed, the quorum is met, or a sweep has passed the deadline. -/
def Complete : Prop :=
  req.unanswered ins = [] ∨ req.minAcks ≤ req.positives ins ∨
    ins.any (SwarmInput.passes req.deadline) = true

instance : Decidable (req.Complete ins) := inferInstanceAs (Decidable (_ ∨ _ ∨ _))

def info : AckInfo where
  received := req.positives ins
  requested := req.minAcks
  timeout := decide (req.positives ins < req.minAcks)

/-- The answer at the first moment at which the request is complete. -/
def outcome : Option AckInfo := (ins.inits.find? fun l => req.Complete l).map req.info

/-! ## One more input -/

variable {req ins}

lemma firstAnswer_concat (i : SwarmInput) (id : ℕ) :
    firstAnswer (ins ++ [i]) id = (firstAnswer ins id).or (i.answerTo id) := by
  rw [firstAnswer, List.findSome?_append, firstAnswer]
  simp

/-- The counts depend on the first answers alone. -/
lemma counts_congr {ins' : List SwarmInput}
    (h : ∀ id ∈ req.requestIds, firstAnswer ins' id = firstAnswer ins id) :
    req.positives ins' = req.positives ins ∧ req.unanswered ins' = req.unanswered ins := by
  constructor
  · exact List.countP_congr fun id hid => by rw [h id hid]
  · exact List.filter_congr fun id hid => by rw [h id hid]

/-- An input that answers none of the open outbound requests changes no count. -/
lemma counts_concat {i : SwarmInput}
    (h : ∀ id ∈ req.requestIds, firstAnswer ins id = none → i.answerTo id = none) :
    req.positives (ins ++ [i]) = req.positives ins ∧
      req.unanswered (ins ++ [i]) = req.unanswered ins := by
  refine counts_congr fun id hid => ?_
  rw [firstAnswer_concat]
  cases hfirst : firstAnswer ins id with
  | none => rw [h id hid hfirst]; rfl
  | some b => rfl

/-- The answer to an open outbound request is counted. -/
lemma counts_answer {i : SwarmInput} {id : ℕ} {b : Bool} (hid : id ∈ req.requestIds)
    (hopen : firstAnswer ins id = none) (hanswer : i.answerTo id = some b)
    (hother : ∀ id', id' ≠ id → i.answerTo id' = none) :
    req.positives (ins ++ [i]) = req.positives ins + (if b then 1 else 0) ∧
      (req.unanswered (ins ++ [i])).length = (req.unanswered ins).length - 1 := by
  have hperm := List.perm_cons_erase hid
  have hsame : ∀ id' ∈ req.requestIds.erase id,
      firstAnswer (ins ++ [i]) id' = firstAnswer ins id' := by
    intro id' hid'
    have hne : id' ≠ id := by
      rintro rfl
      exact req.requestIds_nodup.not_mem_erase hid'
    rw [firstAnswer_concat, hother id' hne, Option.or_none]
  have hnow : firstAnswer (ins ++ [i]) id = some b := by
    rw [firstAnswer_concat, hopen, hanswer]
    rfl
  have hcount :
      (req.requestIds.erase id).countP (fun id' => firstAnswer (ins ++ [i]) id' = some true)
      = (req.requestIds.erase id).countP fun id' => firstAnswer ins id' = some true :=
    List.countP_congr fun id' hid' => by rw [hsame id' hid']
  have hfilter : (req.requestIds.erase id).filter (fun id' => (firstAnswer (ins ++ [i]) id').isNone)
      = (req.requestIds.erase id).filter fun id' => (firstAnswer ins id').isNone :=
    List.filter_congr fun id' hid' => by rw [hsame id' hid']
  constructor
  · rw [positives, positives, hperm.countP_eq, hperm.countP_eq, List.countP_cons, List.countP_cons,
      hcount, hnow, hopen]
    cases b <;> simp
  · rw [unanswered, unanswered, (hperm.filter _).length_eq, (hperm.filter _).length_eq,
      List.filter_cons, List.filter_cons, hfilter, hnow, hopen]
    simp

/-- What has been answered stays answered. -/
lemma firstAnswer_concat_of_some {id : ℕ} {b : Bool} (h : firstAnswer ins id = some b)
    (i : SwarmInput) : firstAnswer (ins ++ [i]) id = some b := by
  rw [firstAnswer_concat, h]
  rfl

lemma Complete.concat (h : req.Complete ins) (i : SwarmInput) : req.Complete (ins ++ [i]) := by
  rcases h with h | h | h
  · refine .inl (List.filter_eq_nil_iff.2 fun id hid hnone => ?_)
    refine List.filter_eq_nil_iff.1 h id hid ?_
    rw [firstAnswer_concat] at hnone
    simp only [Option.isNone_iff_eq_none, Option.or_eq_none_iff] at hnone ⊢
    exact hnone.1
  · refine .inr (.inl (h.trans (List.countP_mono_left fun id _ hpos => ?_)))
    rw [decide_eq_true_eq] at hpos ⊢
    exact firstAnswer_concat_of_some hpos i
  · refine .inr (.inr ?_)
    rw [List.any_append, h, Bool.true_or]

lemma Complete.append (h : req.Complete ins) (later : List SwarmInput) :
    req.Complete (ins ++ later) := by
  induction later generalizing ins with
  | nil => rwa [List.append_nil]
  | cons i later ih =>
      rw [List.append_cons]
      exact ih (h.concat i)

/-! ## The first moment -/

lemma outcome_nil : req.outcome [] = if req.Complete [] then some (req.info []) else none := by
  have hinits : ([] : List SwarmInput).inits = [[]] := rfl
  rw [outcome, hinits, List.find?_singleton]
  by_cases h : req.Complete []
  · simp [h]
  · simp [h]

lemma outcome_concat (i : SwarmInput) :
    req.outcome (ins ++ [i]) = (req.outcome ins).or
      (if req.Complete (ins ++ [i]) then some (req.info (ins ++ [i])) else none) := by
  have hinits : (ins ++ [i]).inits = ins.inits ++ [ins ++ [i]] := by
    rw [List.inits_append]
    rfl
  rw [outcome, hinits, List.find?_append, List.find?_singleton, outcome]
  cases ins.inits.find? fun l => req.Complete l with
  | some l => rfl
  | none =>
      by_cases h : req.Complete (ins ++ [i])
      · simp [h]
      · simp [h]

lemma outcome_eq_none_iff : req.outcome ins = none ↔ ¬ req.Complete ins := by
  rw [outcome, Option.map_eq_none_iff, List.find?_eq_none]
  constructor
  · intro h
    have hself := h ins ((List.mem_inits _ _).2 (List.prefix_refl ins))
    simpa using hself
  · rintro h l hl
    obtain ⟨later, rfl⟩ := (List.mem_inits _ _).1 hl
    simpa using fun hcomplete : req.Complete l => h (hcomplete.append later)

lemma outcome_of_some {a : AckInfo} (h : req.outcome ins = some a) (i : SwarmInput) :
    req.outcome (ins ++ [i]) = some a := by
  rw [outcome_concat, h]
  rfl

lemma outcome_of_none (h : req.outcome ins = none) (i : SwarmInput) :
    req.outcome (ins ++ [i]) =
      if req.Complete (ins ++ [i]) then some (req.info (ins ++ [i])) else none := by
  rw [outcome_concat, h, Option.none_or]

/-- The inputs up to the first moment at which the request is complete. -/
lemma exists_of_outcome {a : AckInfo} (h : req.outcome ins = some a) :
    ∃ processed later, ins = processed ++ later ∧ req.Complete processed ∧
      (∀ earlier, earlier <+: processed → earlier ≠ processed → ¬ req.Complete earlier) ∧
      a = req.info processed := by
  induction ins using List.reverseRecOn with
  | nil =>
      rw [outcome_nil] at h
      split at h
      · rename_i hcomplete
        refine ⟨[], [], rfl, hcomplete, fun earlier hle hne => ?_, (Option.some.inj h).symm⟩
        exact absurd (List.prefix_nil.1 hle) hne
      · cases h
  | append_singleton ins i ih =>
      cases hbefore : req.outcome ins with
      | some b =>
          rw [outcome_of_some hbefore] at h
          obtain ⟨processed, later, rfl, hrest⟩ := ih (hbefore.trans h)
          exact ⟨processed, later ++ [i], by rw [List.append_assoc], hrest⟩
      | none =>
          rw [outcome_of_none hbefore] at h
          split at h
          · rename_i hcomplete
            refine ⟨ins ++ [i], [], (List.append_nil _).symm, hcomplete, fun earlier hle hne => ?_,
              (Option.some.inj h).symm⟩
            rcases List.prefix_concat_iff.1 hle with heq | ⟨later, rfl⟩
            · exact absurd heq hne
            · exact fun hearly => outcome_eq_none_iff.1 hbefore (hearly.append later)
          · cases h

/-! ## Inputs that concern another request -/

variable (req) in
/-- The inputs that can change what the request is answered: what answers an outbound request of
its own, and the sweeps. -/
def concerns : SwarmInput → Bool
  | .response requestId _ | .outboundFailure requestId => decide (requestId ∈ req.requestIds)
  | .sweep _ => true
  | .requestAcks _ => false

lemma answerTo_of_not_concerns {i : SwarmInput} (h : req.concerns i = false) {id : ℕ}
    (hid : id ∈ req.requestIds) : i.answerTo id = none := by
  cases i with
  | requestAcks _ => rfl
  | sweep _ => rfl
  | response requestId inserted =>
      have hnot : requestId ≠ id := fun heq => of_decide_eq_false h (heq ▸ hid)
      exact if_neg hnot
  | outboundFailure requestId =>
      have hnot : requestId ≠ id := fun heq => of_decide_eq_false h (heq ▸ hid)
      exact if_neg hnot

lemma passes_of_not_concerns {i : SwarmInput} (h : req.concerns i = false) (deadline : ℕ) :
    i.passes deadline = false := by
  cases i with
  | sweep _ => cases h
  | requestAcks _ => rfl
  | response _ _ => rfl
  | outboundFailure _ => rfl

lemma filter_concerns_concat (ins : List SwarmInput) (i : SwarmInput) :
    (ins ++ [i]).filter req.concerns =
      ins.filter req.concerns ++ if req.concerns i then [i] else [] := by
  rw [List.filter_append, List.filter_cons, List.filter_nil]

lemma firstAnswer_filter {id : ℕ} (hid : id ∈ req.requestIds) :
    firstAnswer (ins.filter req.concerns) id = firstAnswer ins id := by
  induction ins using List.reverseRecOn with
  | nil => rfl
  | append_singleton ins i ih =>
      rw [filter_concerns_concat, firstAnswer_concat]
      cases hi : req.concerns i with
      | true =>
          rw [if_pos rfl, firstAnswer_concat, ih]
      | false =>
          rw [if_neg Bool.false_ne_true, List.append_nil, ih, answerTo_of_not_concerns hi hid,
            Option.or_none]

lemma any_passes_filter (deadline : ℕ) :
    (ins.filter req.concerns).any (SwarmInput.passes deadline) =
      ins.any (SwarmInput.passes deadline) := by
  rw [List.any_filter]
  congr 1
  funext i
  cases hi : req.concerns i with
  | true => exact Bool.true_and _
  | false => rw [passes_of_not_concerns hi, Bool.and_false]

lemma counts_filter : req.positives (ins.filter req.concerns) = req.positives ins ∧
    req.unanswered (ins.filter req.concerns) = req.unanswered ins :=
  counts_congr fun _ hid => firstAnswer_filter hid

lemma complete_filter_iff : req.Complete (ins.filter req.concerns) ↔ req.Complete ins := by
  rw [Complete, counts_filter.1, counts_filter.2, any_passes_filter, Complete]

lemma info_filter : req.info (ins.filter req.concerns) = req.info ins := by
  rw [info, counts_filter.1, info]

/-- What belongs to another request does not change the answer. -/
lemma outcome_filter : req.outcome (ins.filter req.concerns) = req.outcome ins := by
  induction ins using List.reverseRecOn with
  | nil => rfl
  | append_singleton ins i ih =>
      have hcomplete :
          req.Complete ((ins ++ [i]).filter req.concerns) ↔ req.Complete (ins ++ [i]) :=
        complete_filter_iff
      have hinfo : req.info ((ins ++ [i]).filter req.concerns) = req.info (ins ++ [i]) :=
        info_filter
      rw [filter_concerns_concat] at hcomplete hinfo ⊢
      cases hi : req.concerns i with
      | true =>
          rw [hi, if_pos rfl] at hcomplete hinfo
          rw [if_pos rfl, outcome_concat, outcome_concat, ih, hinfo]
          simp only [hcomplete]
      | false =>
          rw [hi, if_neg Bool.false_ne_true, List.append_nil] at hcomplete
          rw [if_neg Bool.false_ne_true, List.append_nil, ih]
          cases hbefore : req.outcome ins with
          | some a => exact (outcome_of_some hbefore i).symm
          | none =>
              have hincomplete : ¬ req.Complete (ins ++ [i]) := fun h =>
                outcome_eq_none_iff.1 (ih.trans hbefore) (hcomplete.2 h)
              rw [outcome_of_none hbefore, if_neg hincomplete]

variable (req ins) in
/-- The group of the request after these inputs. -/
def pendingOf : PendingAck where
  minAcks := req.minAcks
  received := req.positives ins
  outstanding := (req.unanswered ins).length
  replyTx := some req.replyTx
  deadline := req.deadline

end AckRequest

/-! ## The state of a request in the loop -/

namespace SwarmState

/-- The request has a group, which the open outbound requests of it lead to. -/
structure Waits (s : SwarmState) (req : AckRequest) (ins : List SwarmInput) (groupId : ℕ) :
    Prop where
  incomplete : ¬ req.Complete ins
  group : s.pendingGroups groupId = some (req.pendingOf ins)
  own : ∀ id ∈ req.requestIds,
    s.reqToGroup id = if firstAnswer ins id = none then some groupId else none
  only : ∀ id, s.reqToGroup id = some groupId → id ∈ req.requestIds
  channel : ∀ g p, s.pendingGroups g = some p → p.replyTx = some req.replyTx → g = groupId
  silent : s.sentTo req.replyTx = []

/-- The request has been answered, and no group has its channel. -/
structure Answered (s : SwarmState) (req : AckRequest) (ins : List SwarmInput) : Prop where
  answer : ∃ a, req.outcome ins = some a ∧ s.sentTo req.replyTx = [a]
  channel : ∀ g p, s.pendingGroups g = some p → p.replyTx ≠ some req.replyTx

/-- Where a request stands when these inputs have come in after it. -/
def Stands (s : SwarmState) (req : AckRequest) (ins : List SwarmInput) : Prop :=
  (∃ groupId, s.Waits req ins groupId) ∨ s.Answered req ins

variable {s : SwarmState} {req : AckRequest} {ins : List SwarmInput} {groupId : ℕ}

lemma Waits.outcome (h : s.Waits req ins groupId) : req.outcome ins = none :=
  AckRequest.outcome_eq_none_iff.2 h.incomplete

lemma Stands.sentTo (h : s.Stands req ins) : s.sentTo req.replyTx = (req.outcome ins).toList := by
  rcases h with ⟨g, h⟩ | h
  · rw [h.silent, h.outcome]
    rfl
  · obtain ⟨a, ha, hsent⟩ := h.answer
    rw [hsent, ha]
    rfl

/-! ### Finishing a group -/

lemma sentTo_finish (s : SwarmState) (g : ℕ) (p : PendingAck) (tx : ℕ) :
    (s.finish g p).sentTo tx = s.sentTo tx ++ if p.replyTx = some tx then [p.info] else [] := by
  unfold finish SwarmState.sentTo
  cases hp : p.replyTx with
  | none => simp
  | some tx' =>
      by_cases htx : tx' = tx
      · simp [htx]
      · simp [htx]

lemma pendingGroups_finish_of_some {g g' : ℕ} {p p' : PendingAck}
    (h : (s.finish g p).pendingGroups g' = some p') : s.pendingGroups g' = some p' :=
  Map.of_remove h

lemma Answered.finish (h : s.Answered req ins) {g : ℕ} {p : PendingAck}
    (hp : p.replyTx ≠ some req.replyTx) : (s.finish g p).Answered req ins where
  answer := by
    obtain ⟨a, ha, hsent⟩ := h.answer
    exact ⟨a, ha, by rw [sentTo_finish, hsent, if_neg hp, List.append_nil]⟩
  channel g' p' hp' := h.channel g' p' (pendingGroups_finish_of_some hp')

/-- Another group is finished. -/
lemma Waits.finish_of_ne (h : s.Waits req ins groupId) {g : ℕ} {p : PendingAck} (hne : g ≠ groupId)
    (hp : p.replyTx ≠ some req.replyTx) : (s.finish g p).Waits req ins groupId where
  incomplete := h.incomplete
  group := (Map.remove_of_ne _ _ hne.symm).trans h.group
  own := h.own
  only := h.only
  channel g' p' hp' := h.channel g' p' (pendingGroups_finish_of_some hp')
  silent := by rw [sentTo_finish, h.silent, if_neg hp, List.append_nil]

/-- The request's own group is finished, at the moment at which the request is complete. -/
lemma Waits.finish_self (h : s.Waits req ins groupId) {i : SwarmInput}
    (hcomplete : req.Complete (ins ++ [i])) :
    (s.finish groupId (req.pendingOf (ins ++ [i]))).Answered req (ins ++ [i]) where
  answer := by
    refine ⟨req.info (ins ++ [i]), ?_, ?_⟩
    · rw [AckRequest.outcome_of_none h.outcome, if_pos hcomplete]
    · have hreply : (req.pendingOf (ins ++ [i])).replyTx = some req.replyTx := rfl
      rw [sentTo_finish, h.silent, if_pos hreply]
      rfl
  channel g p hp hreply := by
    have hg : g = groupId := h.channel g p (pendingGroups_finish_of_some hp) hreply
    rw [hg] at hp
    exact Option.some_ne_none p (hp.symm.trans (Map.remove_self s.pendingGroups groupId))

/-! ### Answers to outbound requests -/

section

variable {i : SwarmInput} {id g : ℕ} {p : PendingAck} {update : PendingAck → PendingAck}
  {done : PendingAck → Bool}

/-- The state when an outbound request has been taken off. -/
def takeOff (s : SwarmState) (id : ℕ) : SwarmState :=
  { s with reqToGroup := s.reqToGroup.remove id }

lemma settle_of_unknown (h : s.reqToGroup id = none) : s.settle id update done = s := by
  rw [settle, h]

lemma settle_of_gone (h : s.reqToGroup id = some g) (hg : s.pendingGroups g = none) :
    s.settle id update done = s.takeOff id := by
  simp [settle, h, hg, takeOff]

lemma settle_of_done (h : s.reqToGroup id = some g) (hg : s.pendingGroups g = some p)
    (hd : done (update p) = true) :
    s.settle id update done = (s.takeOff id).finish g (update p) := by
  simp [settle, h, hg, hd, takeOff]

lemma settle_of_more (h : s.reqToGroup id = some g) (hg : s.pendingGroups g = some p)
    (hd : done (update p) = false) :
    s.settle id update done =
      { s.takeOff id with pendingGroups := s.pendingGroups.insert g (update p) } := by
  simp [settle, h, hg, hd, takeOff]

/-- An input that changes neither the counts nor the deadline leaves an incomplete request
incomplete. -/
lemma incomplete_concat (h : ¬ req.Complete ins)
    (hcounts : req.positives (ins ++ [i]) = req.positives ins ∧
      req.unanswered (ins ++ [i]) = req.unanswered ins)
    (hpasses : i.passes req.deadline = false) : ¬ req.Complete (ins ++ [i]) := by
  rw [AckRequest.Complete, hcounts.1, hcounts.2, List.any_append, List.any_cons, hpasses]
  simpa [AckRequest.Complete] using h

/-- The state of the request when an input has come in that does not concern it. -/
lemma Waits.skip (h : s.Waits req ins groupId) {s' : SwarmState}
    (hopen : ∀ id ∈ req.requestIds, firstAnswer ins id = none → i.answerTo id = none)
    (hpasses : i.passes req.deadline = false)
    (hgroup : s'.pendingGroups groupId = s.pendingGroups groupId)
    (hown : ∀ id ∈ req.requestIds, s'.reqToGroup id = s.reqToGroup id)
    (honly : ∀ id, s'.reqToGroup id = some groupId → id ∈ req.requestIds)
    (hchannel : ∀ g p, s'.pendingGroups g = some p → p.replyTx = some req.replyTx → g = groupId)
    (hsent : s'.sentTo req.replyTx = s.sentTo req.replyTx) :
    s'.Waits req (ins ++ [i]) groupId where
  incomplete := incomplete_concat h.incomplete (AckRequest.counts_concat hopen) hpasses
  group := by
    obtain ⟨hpos, hun⟩ := AckRequest.counts_concat hopen
    rw [hgroup, h.group, AckRequest.pendingOf, AckRequest.pendingOf, hpos, hun]
  own id hid := by
    rw [hown id hid, h.own id hid, AckRequest.firstAnswer_concat]
    cases hfirst : firstAnswer ins id with
    | none => rw [hopen id hid hfirst]; rfl
    | some b => rfl
  only := honly
  channel := hchannel
  silent := hsent.trans h.silent

lemma Answered.later (h : s.Answered req ins) (i : SwarmInput) : s.Answered req (ins ++ [i]) where
  answer := by
    obtain ⟨a, ha, hsent⟩ := h.answer
    exact ⟨a, AckRequest.outcome_of_some ha i, hsent⟩
  channel := h.channel

lemma Answered.settle (h : s.Answered req ins)
    (hkeeps : ∀ p, (update p).replyTx = p.replyTx) :
    (s.settle id update done).Answered req ins := by
  cases hreq : s.reqToGroup id with
  | none => rwa [settle_of_unknown hreq]
  | some g =>
      cases hgroup : s.pendingGroups g with
      | none =>
          rw [settle_of_gone hreq hgroup]
          exact ⟨h.answer, h.channel⟩
      | some p =>
          have hp : (update p).replyTx ≠ some req.replyTx := by
            rw [hkeeps]
            exact h.channel g p hgroup
          cases hd : done (update p) with
          | true =>
              rw [settle_of_done hreq hgroup hd]
              have htaken : (s.takeOff id).Answered req ins := ⟨h.answer, h.channel⟩
              exact htaken.finish hp
          | false =>
              rw [settle_of_more hreq hgroup hd]
              refine ⟨h.answer, fun g' p' hp' => ?_⟩
              rcases Map.of_insert hp' with hp' | ⟨-, rfl⟩
              · exact h.channel g' p' hp'
              · exact hp

/-- An answer to an outbound request: of this request, of another, or of one that has been
answered before. -/
lemma Waits.settle (h : s.Waits req ins groupId) (hother : ∀ id', id' ≠ id → i.answerTo id' = none)
    (hpasses : i.passes req.deadline = false) (hkeeps : ∀ p, (update p).replyTx = p.replyTx)
    (hupdate : id ∈ req.requestIds → firstAnswer ins id = none →
      update (req.pendingOf ins) = req.pendingOf (ins ++ [i]))
    (hdone : id ∈ req.requestIds → firstAnswer ins id = none →
      (done (req.pendingOf (ins ++ [i])) = true ↔ req.Complete (ins ++ [i])))
    (hanswer : id ∈ req.requestIds → firstAnswer ins id = none →
      firstAnswer (ins ++ [i]) id ≠ none) :
    (s.settle id update done).Stands req (ins ++ [i]) := by
  cases hreq : s.reqToGroup id with
  | none =>
      -- the answer is late, or belongs to no request
      rw [settle_of_unknown hreq]
      refine .inl ⟨groupId, h.skip (fun id' hid' hopen => hother id' ?_) hpasses rfl
        (fun _ _ => rfl) h.only h.channel rfl⟩
      rintro rfl
      have hown := h.own id' hid'
      rw [if_pos hopen, hreq] at hown
      cases hown
  | some g =>
      by_cases hg : g = groupId
      · subst hg
        have hid := h.only id hreq
        have hopen : firstAnswer ins id = none := by
          have hown := h.own id hid
          rw [hreq] at hown
          by_contra hne
          rw [if_neg hne] at hown
          cases hown
        have hpending := hupdate hid hopen
        cases hd : done (update (req.pendingOf ins)) with
        | true =>
            rw [settle_of_done hreq h.group hd, hpending]
            rw [hpending] at hd
            have hfinish := h.finish_self ((hdone hid hopen).1 hd)
            exact .inr ⟨hfinish.answer, hfinish.channel⟩
        | false =>
            rw [settle_of_more hreq h.group hd, hpending]
            rw [hpending] at hd
            refine .inl ⟨g, fun hcomplete => ?_, Map.insert_self .., fun id' hid' => ?_,
              fun id' hid' => h.only id' (Map.of_remove hid'), fun g' p' hp' hreply => ?_,
              h.silent⟩
            · rw [(hdone hid hopen).2 hcomplete] at hd
              cases hd
            · by_cases hne : id' = id
              · rw [hne, if_neg (hanswer hid hopen)]
                exact Map.remove_self ..
              · rw [AckRequest.firstAnswer_concat, hother id' hne, Option.or_none]
                exact (Map.remove_of_ne _ _ hne).trans (h.own id' hid')
            · rcases Map.of_insert hp' with hp' | ⟨rfl, -⟩
              · exact h.channel g' p' hp' hreply
              · rfl
      · have hnot : id ∉ req.requestIds := by
          intro hid
          have hown := h.own id hid
          rw [hreq] at hown
          split at hown
          · exact hg (Option.some.inj hown)
          · cases hown
        have hne : ∀ id' ∈ req.requestIds, id' ≠ id := fun id' hid' heq => hnot (heq ▸ hid')
        have hopen : ∀ id' ∈ req.requestIds, firstAnswer ins id' = none → i.answerTo id' = none :=
          fun id' hid' _ => hother id' (hne id' hid')
        have hown : ∀ id' ∈ req.requestIds, (s.takeOff id).reqToGroup id' = s.reqToGroup id' :=
          fun id' hid' => Map.remove_of_ne _ _ (hne id' hid')
        have honly : ∀ id', (s.takeOff id).reqToGroup id' = some groupId → id' ∈ req.requestIds :=
          fun id' hid' => h.only id' (Map.of_remove hid')
        cases hgroup : s.pendingGroups g with
        | none =>
            rw [settle_of_gone hreq hgroup]
            exact .inl ⟨groupId, h.skip hopen hpasses rfl hown honly h.channel rfl⟩
        | some p =>
            have hp : (update p).replyTx ≠ some req.replyTx := by
              rw [hkeeps]
              exact fun hreply => hg (h.channel g p hgroup hreply)
            cases hd : done (update p) with
            | true =>
                rw [settle_of_done hreq hgroup hd]
                have hfinish : (s.finish g (update p)).Waits req ins groupId :=
                  h.finish_of_ne hg hp
                exact .inl ⟨groupId, h.skip hopen hpasses (Map.remove_of_ne _ _ (Ne.symm hg)) hown
                  honly hfinish.channel (hfinish.silent.trans h.silent.symm)⟩
            | false =>
                rw [settle_of_more hreq hgroup hd]
                refine .inl ⟨groupId, h.skip hopen hpasses (Map.insert_of_ne _ _ _ (Ne.symm hg))
                  hown honly (fun g' p' hp' hreply => ?_) rfl⟩
                rcases Map.of_insert hp' with hp' | ⟨-, rfl⟩
                · exact h.channel g' p' hp' hreply
                · exact absurd hreply hp

end

/-- An answer completes the request by the counts alone. -/
lemma complete_concat_iff {i : SwarmInput} (h : ¬ req.Complete ins)
    (hpasses : i.passes req.deadline = false) :
    req.Complete (ins ++ [i]) ↔ (req.unanswered (ins ++ [i])).length = 0 ∨
      req.minAcks ≤ req.positives (ins ++ [i]) := by
  have hearlier : ins.any (SwarmInput.passes req.deadline) = false := by
    by_contra hany
    exact h (.inr (.inr (by simpa using hany)))
  rw [AckRequest.Complete, List.any_append, hearlier, List.any_cons, hpasses,
    List.length_eq_zero_iff]
  simp

lemma Stands.response (h : s.Stands req ins) (id : ℕ) (inserted : Bool) :
    (s.response id inserted).Stands req (ins ++ [.response id inserted]) := by
  have hkeeps : ∀ p : PendingAck, ({ p with
      received := if inserted then p.received + 1 else p.received
      outstanding := p.outstanding - 1 } : PendingAck).replyTx = p.replyTx := fun _ => rfl
  rcases h with ⟨groupId, h⟩ | h
  · have hnow : (SwarmInput.response id inserted).answerTo id = some inserted := if_pos rfl
    have hother : ∀ id', id' ≠ id → (SwarmInput.response id inserted).answerTo id' = none :=
      fun id' hne => if_neg (Ne.symm hne)
    refine h.settle hother rfl hkeeps (fun hid hopen => ?_) (fun _ _ => ?_) fun hid hopen => ?_
    · obtain ⟨hpos, hun⟩ := AckRequest.counts_answer hid hopen hnow hother
      rw [AckRequest.pendingOf, AckRequest.pendingOf, hpos, hun]
      cases inserted <;> rfl
    · rw [complete_concat_iff h.incomplete rfl, or_comm]
      show (decide _ || decide _) = true ↔ _
      rw [Bool.or_eq_true, decide_eq_true_eq, decide_eq_true_eq]
      exact Iff.rfl
    · rw [AckRequest.firstAnswer_concat, hopen, hnow]
      exact Option.some_ne_none _
  · exact .inr ((h.settle hkeeps).later _)

lemma Stands.outboundFailure (h : s.Stands req ins) (id : ℕ) :
    (s.outboundFailure id).Stands req (ins ++ [.outboundFailure id]) := by
  have hkeeps : ∀ p : PendingAck,
      ({ p with outstanding := p.outstanding - 1 } : PendingAck).replyTx = p.replyTx := fun _ => rfl
  rcases h with ⟨groupId, h⟩ | h
  · have hnow : (SwarmInput.outboundFailure id).answerTo id = some false := if_pos rfl
    have hother : ∀ id', id' ≠ id → (SwarmInput.outboundFailure id).answerTo id' = none :=
      fun id' hne => if_neg (Ne.symm hne)
    refine h.settle hother rfl hkeeps (fun hid hopen => ?_) (fun hid hopen => ?_)
      fun hid hopen => ?_
    · obtain ⟨hpos, hun⟩ := AckRequest.counts_answer hid hopen hnow hother
      rw [AckRequest.pendingOf, AckRequest.pendingOf, hpos, hun]
      rfl
    · -- a failure brings the quorum no closer
      obtain ⟨hpos, -⟩ := AckRequest.counts_answer hid hopen hnow hother
      have hshort : ¬ req.minAcks ≤ req.positives (ins ++ [.outboundFailure id]) := by
        rw [hpos]
        exact fun hmet => h.incomplete (.inr (.inl hmet))
      rw [complete_concat_iff h.incomplete rfl, or_iff_left hshort]
      show decide _ = true ↔ _
      rw [decide_eq_true_eq]
      exact Iff.rfl
    · rw [AckRequest.firstAnswer_concat, hopen, hnow]
      exact Option.some_ne_none _
  · exact .inr ((h.settle hkeeps).later _)

/-! ### The sweep -/

/-- One round of the sweep's loop. -/
lemma sweep_cons (s : SwarmState) (g : ℕ) (expired : List ℕ) :
    s.sweep (g :: expired) =
      (match s.pendingGroups g with
        | none => s
        | some p => s.finish g p).sweep expired :=
  rfl

lemma Answered.sweep (h : s.Answered req ins) (expired : List ℕ) :
    (s.sweep expired).Answered req ins := by
  induction expired generalizing s with
  | nil => exact h
  | cons g expired ih =>
      rw [sweep_cons]
      cases hgroup : s.pendingGroups g with
      | none => exact ih h
      | some p => exact ih (h.finish (h.channel g p hgroup))

/-- A sweep that does not meet the group of the request. -/
lemma Waits.sweep_of_notMem (h : s.Waits req ins groupId) {expired : List ℕ}
    (hnot : groupId ∉ expired) : (s.sweep expired).Waits req ins groupId := by
  induction expired generalizing s with
  | nil => exact h
  | cons g expired ih =>
      rw [List.mem_cons, not_or] at hnot
      rw [sweep_cons]
      cases hgroup : s.pendingGroups g with
      | none => exact ih h hnot.2
      | some p =>
          have hne : g ≠ groupId := Ne.symm hnot.1
          exact ih (h.finish_of_ne hne fun hreply => hne (h.channel g p hgroup hreply)) hnot.2

lemma sweep_append (s : SwarmState) (l₁ l₂ : List ℕ) :
    s.sweep (l₁ ++ l₂) = (s.sweep l₁).sweep l₂ :=
  List.foldl_append

lemma Stands.sweep (h : s.Stands req ins) {now : ℕ} {expired : List ℕ} (hnodup : expired.Nodup)
    (hexpired : ∀ g, g ∈ expired ↔ ∃ p, s.pendingGroups g = some p ∧ p.deadline ≤ now) :
    (s.sweep expired).Stands req (ins ++ [.sweep now]) := by
  rcases h with ⟨groupId, h⟩ | h
  · have hopen : ∀ id ∈ req.requestIds, firstAnswer ins id = none →
        (SwarmInput.sweep now).answerTo id = none := fun _ _ _ => rfl
    by_cases hdue : req.deadline ≤ now
    · have hmem : groupId ∈ expired := (hexpired groupId).2 ⟨_, h.group, hdue⟩
      obtain ⟨l₁, l₂, rfl⟩ := List.append_of_mem hmem
      have hnot : groupId ∉ l₁ := fun hin =>
        (List.nodup_append.1 hnodup).2.2 _ hin _ List.mem_cons_self rfl
      have hcomplete : req.Complete (ins ++ [.sweep now]) := by
        refine .inr (.inr ?_)
        rw [List.any_append, List.any_cons]
        simp [SwarmInput.passes, hdue]
      have hbefore := h.sweep_of_notMem hnot
      have hcounts := AckRequest.counts_concat hopen
      have hsame : req.pendingOf ins = req.pendingOf (ins ++ [.sweep now]) := by
        rw [AckRequest.pendingOf, AckRequest.pendingOf, hcounts.1, hcounts.2]
      rw [sweep_append, sweep_cons, hbefore.group, hsame]
      exact .inr ((hbefore.finish_self hcomplete).sweep l₂)
    · have hpasses : (SwarmInput.sweep now).passes req.deadline = false := decide_eq_false hdue
      have hnot : groupId ∉ expired := by
        intro hin
        obtain ⟨p, hp, hle⟩ := (hexpired groupId).1 hin
        rw [h.group] at hp
        obtain rfl := Option.some.inj hp
        exact hdue hle
      have hafter := h.sweep_of_notMem hnot
      exact .inl ⟨groupId, hafter.skip hopen hpasses rfl (fun _ _ => rfl) hafter.only
        hafter.channel rfl⟩
  · exact .inr ((h.sweep expired).later _)

/-! ### Requests -/

lemma foldl_insert_apply (ids : List ℕ) (m : Map ℕ ℕ) (g id : ℕ) :
    ids.foldl (fun m id => m.insert id g) m id = if id ∈ ids then some g else m id := by
  induction ids generalizing m with
  | nil => rfl
  | cons x ids ih =>
      rw [List.foldl_cons, ih, Map.insert_apply]
      by_cases hx : id = x
      · simp [hx]
      · simp [hx]

lemma sentTo_requestAcks (s : SwarmState) (req : AckRequest) (tx : ℕ) :
    (s.requestAcks req).sentTo tx = s.sentTo tx ++
      if req.requestIds = [] ∧ req.replyTx = tx then
        [{ received := 0, requested := req.minAcks, timeout := true }] else [] := by
  unfold requestAcks SwarmState.sentTo
  split
  · rename_i hnone
    by_cases htx : req.replyTx = tx
    · simp [hnone, htx]
    · simp [hnone, htx]
  · rename_i hsome
    simp [hsome]

lemma pendingGroups_requestAcks {req' : AckRequest} {g : ℕ} {p : PendingAck}
    (h : (s.requestAcks req').pendingGroups g = some p) :
    s.pendingGroups g = some p ∨ g = s.nextGroupId ∧ p.replyTx = some req'.replyTx := by
  unfold requestAcks at h
  split at h
  · exact .inl h
  · rcases Map.of_insert h with h | ⟨rfl, rfl⟩
    · exact .inl h
    · exact .inr ⟨rfl, rfl⟩

/-- What the loop holds comes from requests that came in. -/
structure Sourced (s : SwarmState) (ins : List SwarmInput) : Prop where
  number : ∀ g p, s.pendingGroups g = some p → g < s.nextGroupId
  channel : ∀ g p tx, s.pendingGroups g = some p → p.replyTx = some tx →
    ∃ req, .requestAcks req ∈ ins ∧ req.replyTx = tx
  request : ∀ id g, s.reqToGroup id = some g → g < s.nextGroupId
  sent : ∀ tx, s.sentTo tx ≠ [] → ∃ req, .requestAcks req ∈ ins ∧ req.replyTx = tx

/-- Another request is filed under a number of its own. -/
lemma Stands.requestAcks (h : s.Stands req ins) {all : List SwarmInput} (hsourced : s.Sourced all)
    {req' : AckRequest} (htx : req'.replyTx ≠ req.replyTx)
    (hids : ∀ id ∈ req'.requestIds, id ∉ req.requestIds) :
    (s.requestAcks req').Stands req (ins ++ [.requestAcks req']) := by
  have hsent : (s.requestAcks req').sentTo req.replyTx = s.sentTo req.replyTx := by
    rw [sentTo_requestAcks, if_neg fun hboth => htx hboth.2, List.append_nil]
  rcases h with ⟨groupId, h⟩ | h
  · have hlt := hsourced.number groupId _ h.group
    refine .inl ⟨groupId, h.skip (fun _ _ _ => rfl) rfl ?_ (fun id hid => ?_) (fun id hid => ?_)
      (fun g p hp hreply => ?_) hsent⟩
    · unfold SwarmState.requestAcks
      split
      · rfl
      · exact Map.insert_of_ne _ _ _ hlt.ne
    · unfold SwarmState.requestAcks
      split
      · rfl
      · show (req'.requestIds.foldl _ s.reqToGroup) id = _
        rw [foldl_insert_apply, if_neg fun hid' => hids id hid' hid]
    · unfold SwarmState.requestAcks at hid
      split at hid
      · exact h.only id hid
      · change (req'.requestIds.foldl _ s.reqToGroup) id = _ at hid
        rw [foldl_insert_apply] at hid
        split at hid
        · exact absurd (Option.some.inj hid) hlt.ne'
        · exact h.only id hid
    · rcases pendingGroups_requestAcks hp with hp | ⟨-, hp⟩
      · exact h.channel g p hp hreply
      · exact absurd (Option.some.inj (hp.symm.trans hreply)) htx
  · refine .inr (Answered.later ⟨?_, fun g p hp hreply => ?_⟩ _)
    · obtain ⟨a, ha, hold⟩ := h.answer
      exact ⟨a, ha, hsent.trans hold⟩
    · rcases pendingGroups_requestAcks hp with hp | ⟨-, hp⟩
      · exact h.channel g p hp hreply
      · exact htx (Option.some.inj (hp.symm.trans hreply))

/-- A request that has just come in. -/
lemma stands_requestAcks {all : List SwarmInput} (hsourced : s.Sourced all)
    (hfresh : ∀ req', .requestAcks req' ∈ all → req'.replyTx ≠ req.replyTx) :
    (s.requestAcks req).Stands req [] := by
  have hsilent : s.sentTo req.replyTx = [] := by
    by_contra hsent
    obtain ⟨req', hmem, heq⟩ := hsourced.sent _ hsent
    exact hfresh req' hmem heq
  have hchannel : ∀ g p, s.pendingGroups g = some p → p.replyTx ≠ some req.replyTx := by
    intro g p hp hreply
    obtain ⟨req', hmem, heq⟩ := hsourced.channel g p _ hp hreply
    exact hfresh req' hmem heq
  have hnone : ∀ id, firstAnswer [] id = none := fun _ => rfl
  have hpositives : req.positives [] = 0 := by simp [AckRequest.positives, hnone]
  have hunanswered : req.unanswered [] = req.requestIds := by
    simp [AckRequest.unanswered, hnone]
  by_cases hids : req.requestIds = []
  · have hcomplete : req.Complete [] := .inl (hunanswered.trans hids)
    refine .inr ⟨⟨req.info [], ?_, ?_⟩, fun g p hp => ?_⟩
    · rw [AckRequest.outcome_nil, if_pos hcomplete]
    · rw [sentTo_requestAcks, hsilent, if_pos ⟨hids, rfl⟩, AckRequest.info, hpositives,
        decide_eq_true req.minAcks_pos]
      rfl
    · unfold SwarmState.requestAcks at hp
      rw [if_pos hids] at hp
      exact hchannel g p hp
  · refine .inl ⟨s.nextGroupId, ?_, ?_, fun id hid => ?_, fun id hid => ?_, fun g p hp hreply => ?_,
      ?_⟩
    · rw [AckRequest.Complete, hunanswered, hpositives]
      have hpos := req.minAcks_pos
      simp [hids]
      omega
    · unfold SwarmState.requestAcks
      rw [if_neg hids, AckRequest.pendingOf, hpositives, hunanswered]
      exact Map.insert_self ..
    · unfold SwarmState.requestAcks
      rw [if_neg hids, if_pos (hnone id)]
      show (req.requestIds.foldl _ s.reqToGroup) id = _
      rw [foldl_insert_apply, if_pos hid]
    · unfold SwarmState.requestAcks at hid
      rw [if_neg hids] at hid
      change (req.requestIds.foldl _ s.reqToGroup) id = _ at hid
      rw [foldl_insert_apply] at hid
      split at hid
      · rename_i hmem
        exact hmem
      · exact absurd (hsourced.request _ _ hid) (lt_irrefl _)
    · rcases pendingGroups_requestAcks hp with hp | ⟨hg, -⟩
      · exact absurd hreply (hchannel g p hp)
      · exact hg
    · rw [sentTo_requestAcks, hsilent, if_neg fun hboth => hids hboth.1, List.append_nil]

/-! ### Where groups come from -/

/-- The loop holds no more than before, and has answered only who was waiting. -/
structure Shrinks (s s' : SwarmState) : Prop where
  next : s'.nextGroupId = s.nextGroupId
  group : ∀ g p', s'.pendingGroups g = some p' →
    ∃ p, s.pendingGroups g = some p ∧ p'.replyTx = p.replyTx
  request : ∀ id g, s'.reqToGroup id = some g → s.reqToGroup id = some g
  sent : ∀ tx, s'.sentTo tx ≠ [] →
    s.sentTo tx ≠ [] ∨ ∃ g p, s.pendingGroups g = some p ∧ p.replyTx = some tx

namespace Shrinks

variable {s' s'' : SwarmState}

lemma refl (s : SwarmState) : s.Shrinks s :=
  ⟨rfl, fun _ p hp => ⟨p, hp, rfl⟩, fun _ _ h => h, fun _ h => .inl h⟩

lemma trans (h : s.Shrinks s') (h' : s'.Shrinks s'') : s.Shrinks s'' where
  next := h'.next.trans h.next
  group g p'' hp'' := by
    obtain ⟨p', hp', heq'⟩ := h'.group g p'' hp''
    obtain ⟨p, hp, heq⟩ := h.group g p' hp'
    exact ⟨p, hp, heq'.trans heq⟩
  request id g hid := h.request id g (h'.request id g hid)
  sent tx htx := by
    rcases h'.sent tx htx with hsent | ⟨g, p', hp', hreply⟩
    · exact h.sent tx hsent
    · obtain ⟨p, hp, heq⟩ := h.group g p' hp'
      exact .inr ⟨g, p, hp, heq ▸ hreply⟩

lemma takeOff (s : SwarmState) (id : ℕ) : s.Shrinks (s.takeOff id) :=
  ⟨rfl, fun _ p hp => ⟨p, hp, rfl⟩, fun _ _ h => Map.of_remove h, fun _ h => .inl h⟩

lemma finish {g : ℕ} {p p' : PendingAck} (hp : s.pendingGroups g = some p)
    (hreply : p'.replyTx = p.replyTx) : s.Shrinks (s.finish g p') where
  next := rfl
  group g' q hq := ⟨q, pendingGroups_finish_of_some hq, rfl⟩
  request _ _ h := h
  sent tx htx := by
    rw [sentTo_finish] at htx
    by_cases hmine : p'.replyTx = some tx
    · exact .inr ⟨g, p, hp, hreply ▸ hmine⟩
    · rw [if_neg hmine, List.append_nil] at htx
      exact .inl htx

lemma settle (s : SwarmState) (id : ℕ) {update : PendingAck → PendingAck}
    {done : PendingAck → Bool} (hkeeps : ∀ p, (update p).replyTx = p.replyTx) :
    s.Shrinks (s.settle id update done) := by
  cases hreq : s.reqToGroup id with
  | none =>
      rw [settle_of_unknown hreq]
      exact refl s
  | some g =>
      cases hgroup : s.pendingGroups g with
      | none =>
          rw [settle_of_gone hreq hgroup]
          exact takeOff s id
      | some p =>
          cases hd : done (update p) with
          | true =>
              rw [settle_of_done hreq hgroup hd]
              exact (takeOff s id).trans (finish hgroup (hkeeps p))
          | false =>
              rw [settle_of_more hreq hgroup hd]
              refine ⟨rfl, fun g' q hq => ?_, fun _ _ h => Map.of_remove h, fun _ h => .inl h⟩
              rcases Map.of_insert hq with hq | ⟨rfl, rfl⟩
              · exact ⟨q, hq, rfl⟩
              · exact ⟨p, hgroup, hkeeps p⟩

lemma sweep (s : SwarmState) (expired : List ℕ) : s.Shrinks (s.sweep expired) := by
  induction expired generalizing s with
  | nil => exact refl s
  | cons g expired ih =>
      rw [sweep_cons]
      cases hgroup : s.pendingGroups g with
      | none => exact ih s
      | some p => exact (finish hgroup rfl).trans (ih _)

end Shrinks

lemma Sourced.mono {all all' : List SwarmInput} (h : s.Sourced all) (hsub : all ⊆ all') :
    s.Sourced all' where
  number := h.number
  channel g p tx hp hreply := by
    obtain ⟨req, hmem, heq⟩ := h.channel g p tx hp hreply
    exact ⟨req, hsub hmem, heq⟩
  request := h.request
  sent tx htx := by
    obtain ⟨req, hmem, heq⟩ := h.sent tx htx
    exact ⟨req, hsub hmem, heq⟩

lemma Sourced.shrink {all : List SwarmInput} {s' : SwarmState} (h : s.Sourced all)
    (hs : s.Shrinks s') : s'.Sourced all where
  number g p' hp' := by
    obtain ⟨p, hp, -⟩ := hs.group g p' hp'
    exact hs.next ▸ h.number g p hp
  channel g p' tx hp' hreply := by
    obtain ⟨p, hp, heq⟩ := hs.group g p' hp'
    exact h.channel g p tx hp (heq ▸ hreply)
  request id g hid := hs.next ▸ h.request id g (hs.request id g hid)
  sent tx htx := by
    rcases hs.sent tx htx with hsent | ⟨g, p, hp, hreply⟩
    · exact h.sent tx hsent
    · exact h.channel g p tx hp hreply

lemma Sourced.requestAcks {all : List SwarmInput} (h : s.Sourced all) (req : AckRequest) :
    (s.requestAcks req).Sourced (all ++ [.requestAcks req]) := by
  have hself : SwarmInput.requestAcks req ∈ all ++ [.requestAcks req] :=
    List.mem_append_right _ List.mem_cons_self
  have hold := h.mono (List.subset_append_left all [.requestAcks req])
  have hnext : s.nextGroupId ≤ (s.requestAcks req).nextGroupId := by
    unfold SwarmState.requestAcks
    split
    · exact le_rfl
    · exact Nat.le_succ _
  refine ⟨fun g p hp => ?_, fun g p tx hp hreply => ?_, fun id g hid => ?_, fun tx htx => ?_⟩
  · unfold SwarmState.requestAcks at hp ⊢
    split at hp
    · rename_i hids
      rw [if_pos hids]
      exact h.number g p hp
    · rename_i hids
      rw [if_neg hids]
      rcases Map.of_insert hp with hp | ⟨rfl, -⟩
      · exact (h.number g p hp).trans (Nat.lt_succ_self _)
      · exact Nat.lt_succ_self _
  · rcases pendingGroups_requestAcks hp with hp | ⟨-, hp⟩
    · exact hold.channel g p tx hp hreply
    · exact ⟨req, hself, Option.some.inj (hp.symm.trans hreply)⟩
  · unfold SwarmState.requestAcks at hid ⊢
    split at hid
    · rename_i hids
      rw [if_pos hids]
      exact h.request id g hid
    · rename_i hids
      rw [if_neg hids]
      change (req.requestIds.foldl _ s.reqToGroup) id = _ at hid
      rw [foldl_insert_apply] at hid
      split at hid
      · rw [← Option.some.inj hid]
        exact Nat.lt_succ_self _
      · exact (h.request id g hid).trans (Nat.lt_succ_self _)
  · rw [sentTo_requestAcks] at htx
    by_cases hmine : req.requestIds = [] ∧ req.replyTx = tx
    · exact ⟨req, hself, hmine.2⟩
    · rw [if_neg hmine, List.append_nil] at htx
      exact hold.sent tx htx

end SwarmState

open SwarmState

/-! ## Every run -/

/-- What the loop holds comes from the requests of its run. -/
lemma SwarmRun.sourced {ins : List SwarmInput} {s : SwarmState} (hrun : SwarmRun ins s) :
    s.Sourced ins := by
  induction hrun with
  | start =>
      refine ⟨fun g p hp => ?_, fun g p tx hp => ?_, fun id g hid => ?_, fun tx htx => ?_⟩
      · cases hp
      · cases hp
      · cases hid
      · exact absurd rfl htx
  | requestAcks hrun hfresh ih => exact ih.requestAcks _
  | @response ins s requestId inserted hrun ih =>
      have hshrink : s.Shrinks (s.response requestId inserted) :=
        Shrinks.settle s requestId fun _ => rfl
      exact (ih.shrink hshrink).mono (List.subset_append_left _ _)
  | @outboundFailure ins s requestId hrun ih =>
      have hshrink : s.Shrinks (s.outboundFailure requestId) :=
        Shrinks.settle s requestId fun _ => rfl
      exact (ih.shrink hshrink).mono (List.subset_append_left _ _)
  | sweep now hrun hnodup hexpired ih =>
      exact (ih.shrink (Shrinks.sweep _ _)).mono (List.subset_append_left _ _)

/-- The last entry of a list that holds `x` is `x` itself or comes after it. -/
lemma eq_concat_cons {α : Type*} {ins pre post : List α} {i x : α}
    (h : ins ++ [i] = pre ++ x :: post) :
    (ins = pre ∧ i = x ∧ post = []) ∨ ∃ post', post = post' ++ [i] ∧ ins = pre ++ x :: post' := by
  induction post using List.reverseRecOn with
  | nil =>
      obtain ⟨hins, hi⟩ := List.append_inj' h rfl
      exact .inl ⟨hins, (List.singleton_inj.1 hi), rfl⟩
  | append_singleton post' y _ =>
      have h' : ins ++ [i] = (pre ++ x :: post') ++ [y] := by
        rw [h, List.append_assoc, List.cons_append]
      obtain ⟨hins, hi⟩ := List.append_inj' h' rfl
      exact .inr ⟨post', by rw [List.singleton_inj.1 hi], hins⟩

/-- Every request of a run stands as the inputs since it say. -/
lemma SwarmRun.stands {ins : List SwarmInput} {s : SwarmState} (hrun : SwarmRun ins s)
    {req : AckRequest} {pre post : List SwarmInput} (h : ins = pre ++ .requestAcks req :: post) :
    s.Stands req post := by
  induction hrun generalizing post with
  | start => exact absurd h.symm (List.append_ne_nil_of_right_ne_nil _ (List.cons_ne_nil _ _))
  | requestAcks hrun hfresh ih =>
      rcases eq_concat_cons h with ⟨rfl, heq, rfl⟩ | ⟨post', rfl, hins⟩
      · obtain rfl := SwarmInput.requestAcks.inj heq
        exact stands_requestAcks hrun.sourced fun req' hmem => (hfresh req' hmem).1
      · have hmem : SwarmInput.requestAcks req ∈ pre ++ .requestAcks req :: post' :=
          List.mem_append_right _ List.mem_cons_self
        obtain ⟨htx, hids⟩ := hfresh req (hins ▸ hmem)
        exact (ih hins).requestAcks hrun.sourced htx.symm hids
  | response requestId inserted hrun ih =>
      rcases eq_concat_cons h with ⟨-, heq, -⟩ | ⟨post', rfl, hins⟩
      · cases heq
      · exact (ih hins).response requestId inserted
  | outboundFailure requestId hrun ih =>
      rcases eq_concat_cons h with ⟨-, heq, -⟩ | ⟨post', rfl, hins⟩
      · cases heq
      · exact (ih hins).outboundFailure requestId
  | sweep now hrun hnodup hexpired ih =>
      rcases eq_concat_cons h with ⟨-, heq, -⟩ | ⟨post', rfl, hins⟩
      · cases heq
      · exact (ih hins).sweep hnodup hexpired

/-- Quorum acknowledgement accounting: in every run each request gets at most one answer, and one
exactly when it is complete; the answer counts the positive acknowledgements up to that first
moment, reports a timeout exactly when they are too few, and depends on nothing that belongs to
another request. -/
theorem ack_accounting {req : AckRequest} {pre post : List SwarmInput} {s : SwarmState}
    (hrun : SwarmRun (pre ++ .requestAcks req :: post) s) :
    (s.sentTo req.replyTx).length ≤ 1 ∧
    ((s.sentTo req.replyTx).length = 1 ↔ req.Complete post) ∧
    (∀ a ∈ s.sentTo req.replyTx, ∃ processed later, post = processed ++ later ∧
      req.Complete processed ∧
      (∀ earlier, earlier <+: processed → earlier ≠ processed → ¬ req.Complete earlier) ∧
      a.received = req.positives processed ∧ a.requested = req.minAcks ∧
      (a.timeout = true ↔ a.received < a.requested)) ∧
    ∀ pre' post' s', SwarmRun (pre' ++ .requestAcks req :: post') s' →
      post'.filter req.concerns = post.filter req.concerns →
      s'.sentTo req.replyTx = s.sentTo req.replyTx := by
  have hsent : s.sentTo req.replyTx = (req.outcome post).toList := (hrun.stands rfl).sentTo
  refine ⟨?_, ?_, fun a ha => ?_, fun pre' post' s' hrun' hsame => ?_⟩
  · rw [hsent]
    cases req.outcome post with
    | none => exact Nat.zero_le 1
    | some a => exact le_rfl
  · rw [hsent]
    cases hout : req.outcome post with
    | none => simpa using AckRequest.outcome_eq_none_iff.1 hout
    | some a =>
        have hcomplete : req.Complete post := by
          by_contra hincomplete
          rw [AckRequest.outcome_eq_none_iff.2 hincomplete] at hout
          cases hout
        simpa using hcomplete
  · rw [hsent, Option.mem_toList] at ha
    obtain ⟨processed, later, hpost, hcomplete, hfirst, rfl⟩ := AckRequest.exists_of_outcome ha
    exact ⟨processed, later, hpost, hcomplete, hfirst, rfl, rfl, decide_eq_true_iff⟩
  · have hsent' : s'.sentTo req.replyTx = (req.outcome post').toList := (hrun'.stands rfl).sentTo
    rw [hsent', hsent, ← AckRequest.outcome_filter, hsame, AckRequest.outcome_filter]

/-- Two writes that wait at the same time: one asks two peers and needs one of them, the other
asks one peer and needs it twice. -/
def easyQuorum : AckRequest where
  replyTx := 0
  minAcks := 1
  deadline := 10
  requestIds := [0, 1]
  requestIds_nodup := by decide
  minAcks_pos := Nat.one_pos

def hopelessQuorum : AckRequest where
  replyTx := 1
  minAcks := 2
  deadline := 10
  requestIds := [2]
  requestIds_nodup := by decide
  minAcks_pos := Nat.two_pos

/-- The failure of the second write's peer comes before the first positive acknowledgement. -/
def twoQuorums : SwarmState :=
  (((SwarmState.initial.requestAcks easyQuorum).requestAcks hopelessQuorum).outboundFailure
    2).response 0 true

lemma twoQuorums_run : SwarmRun ([] ++ .requestAcks easyQuorum ::
    [.requestAcks hopelessQuorum, .outboundFailure 2, .response 0 true]) twoQuorums := by
  refine .response 0 true (.outboundFailure 2 (.requestAcks (.requestAcks .start ?_) ?_))
  · intro req' hmem
    cases hmem
  · intro req' hmem
    obtain rfl := SwarmInput.requestAcks.inj (List.mem_singleton.1 hmem)
    decide

theorem ack_accounting_two_quorums :
    SwarmRun ([] ++ .requestAcks easyQuorum ::
      [.requestAcks hopelessQuorum, .outboundFailure 2, .response 0 true]) twoQuorums ∧
    (twoQuorums.sentTo easyQuorum.replyTx).length = 1 := by
  refine ⟨twoQuorums_run, (ack_accounting twoQuorums_run).2.1.2 ?_⟩
  decide

end Shardd
