import PaintBench.Proofs.Quantity.Sorting
import PaintBench.Proofs.Trace.Numbers
import PaintBench.Proofs.Worker.Files

/-!
# Collected traces

`Drains` are the successive answers of a session whose log is drained. As long as batches with
anything in them come, draining goes on (`Drains.drainAll_of_goesOn`, by induction on the number
of batches); an empty batch or a failure ends it. The events of all batches are then sorted by
their times, and the sort is stable.

So what is collected depends on the records alone and not on how they came in batches
(`events_of_drains`).
-/

namespace PaintBench

variable {σ : Type}

namespace Trace

/-! ## Answers of a session -/

/-- An answer after which the log is drained again: a batch of some records, whether or not any
of them stands for an event. -/
def GoesOn (answer : Except SessionError (List String)) : Prop :=
  ∃ batch, answer = .ok batch ∧ batch ≠ []

/-- The successive drains of a session from a situation on: what they are answered with, when,
and what is outside after each of them. Only as long as it goes on is there a next one. -/
structure Drains (w : World σ) (session : SessionId) (s : Situation σ) where
  answers : Nat → Except SessionError (List String)
  time : Nat → Nat
  outside : Nat → σ
  now_eq : s.now = time 0
  outside_eq : s.outside = outside 0
  drain : ∀ n, (∀ k < n, GoesOn (answers k)) → ∃ ms mid,
    w.receive (.call session .drain) (outside n) = (.after ms, mid) ∧
    time n + ms = time (n + 1) ∧
    w.answer (.call session .drain) (time (n + 1)) mid = (answers n, outside (n + 1))

namespace Drains

variable {w : World σ} {session : SessionId} {s : Situation σ} (h : Drains w session s)

/-- The first drains with their answers. -/
def exchanges (n : Nat) : List Exchange :=
  (List.range n).map fun k => ⟨h.time (k + 1), .call session .drain, h.answers k⟩

/-- The records that the first drains hand out. -/
def records (n : Nat) : List String :=
  (List.range n).flatMap fun k => (h.answers k).toOption.getD []

/-- The events that the first drains hand out, in the order of their arrival. -/
def arrived (n : Nat) : List (Event Float) :=
  (h.records n).filterMap classify

/-- Where the first drains lead to. -/
structure LeadsTo (n : Nat) (mid : Situation σ) : Prop where
  asked : Asked s (h.exchanges n) mid
  now : mid.now = h.time n
  outside : mid.outside = h.outside n

theorem exchanges_succ (n : Nat) : h.exchanges (n + 1) =
    h.exchanges n ++ [⟨h.time (n + 1), .call session .drain, h.answers n⟩] := by
  rw [exchanges, List.range_succ, List.map_append]
  rfl

theorem arrived_succ {n : Nat} {batch : List String} (hbatch : h.answers n = .ok batch) :
    h.arrived (n + 1) = h.arrived n ++ batch.filterMap classify := by
  rw [arrived, records, List.range_succ, List.flatMap_append, List.filterMap_append]
  simp [arrived, records, hbatch, Except.toOption]

theorem leadsTo_zero : h.LeadsTo 0 s :=
  ⟨.refl s, h.now_eq, h.outside_eq⟩

variable {h} {n : Nat} {mid : Situation σ}

/-- The next drain is answered in its turn. -/
theorem LeadsTo.next (hmid : h.LeadsTo n mid) (hgo : ∀ k < n, GoesOn (h.answers k)) :
    ∃ mid', h.LeadsTo (n + 1) mid' ∧ ∀ patience,
      (Attempt.call session .drain).run ⟨w, none, patience⟩ mid =
        (.ok ((h.answers n).mapError .session), mid') := by
  obtain ⟨ms, between, hreceive, htime, hanswer⟩ := h.drain n hgo
  rw [← htime, ← hmid.now] at hanswer
  rw [← hmid.outside] at hreceive
  refine ⟨_, ⟨?_, ?_, rfl⟩, Attempt.call_of_after hreceive hanswer⟩
  · rw [exchanges_succ, ← htime, ← hmid.now]
    exact hmid.asked.trans rfl
  · rw [← htime, ← hmid.now]

/-- What draining ends with, after events that were drained before. -/
def precededBy (events : List (Event Float))
    (drained : Except Halt (Except RunError (List (Event Float)))) :
    Except Halt (Except RunError (List (Event Float))) :=
  drained.map (·.map (events ++ ·))

theorem precededBy_ok (events later : List (Event Float)) :
    precededBy events (.ok (.ok later)) = .ok (.ok (events ++ later)) := rfl

theorem precededBy_nil (drained : Except Halt (Except RunError (List (Event Float)))) :
    precededBy [] drained = drained := by
  obtain halt | ⟨e | events⟩ := drained <;> rfl

theorem precededBy_append (events later : List (Event Float))
    (drained : Except Halt (Except RunError (List (Event Float)))) :
    precededBy (events ++ later) drained = precededBy events (precededBy later drained) := by
  obtain halt | ⟨e | rest⟩ := drained
  · rfl
  · rfl
  · simp [precededBy, Except.map]

/-- After a batch the log is drained again. -/
theorem LeadsTo.drainAll_succ (hmid : h.LeadsTo n mid) (hgo : ∀ k < n + 1, GoesOn (h.answers k)) :
    ∃ mid', h.LeadsTo (n + 1) mid' ∧ ∃ batch, h.answers n = .ok batch ∧
      ∀ {drains patience result s'},
        (drainAll session drains).run ⟨w, none, patience⟩ mid' = (result, s') →
        (drainAll session (drains + 1)).run ⟨w, none, patience⟩ mid =
          (precededBy (batch.filterMap classify) result, s') := by
  obtain ⟨batch, hbatch, hne⟩ := hgo n (Nat.lt_succ_self n)
  obtain ⟨mid', hmid', hcall⟩ := hmid.next fun k hk => hgo k (Nat.lt_succ_of_lt hk)
  refine ⟨mid', hmid', batch, hbatch, fun {drains patience result s'} hrest => ?_⟩
  rw [hbatch] at hcall
  refine Attempt.bind_of_ok (hcall patience) ?_
  rw [if_neg (by simpa using hne), Attempt.bind_apply, hrest]
  obtain halt | ⟨e | later⟩ := result <;> rfl

/-- While batches come, their events are put in front of what comes later. -/
theorem drainAll_of_goesOn (h : Drains w session s) {n : Nat}
    (hgo : ∀ k < n, GoesOn (h.answers k)) :
    ∃ mid, h.LeadsTo n mid ∧ ∀ {drains patience result s'},
      (drainAll session drains).run ⟨w, none, patience⟩ mid = (result, s') →
      (drainAll session (n + drains)).run ⟨w, none, patience⟩ s =
        (precededBy (h.arrived n) result, s') := by
  induction n with
  | zero =>
    refine ⟨s, h.leadsTo_zero, fun {drains patience result s'} hrest => ?_⟩
    rw [Nat.zero_add, hrest]
    exact congrArg (·, s') (precededBy_nil result).symm
  | succ n ih =>
    obtain ⟨mid, hmid, hdrains⟩ := ih fun k hk => hgo k (Nat.lt_succ_of_lt hk)
    obtain ⟨mid', hmid', batch, hbatch, hnext⟩ := hmid.drainAll_succ hgo
    refine ⟨mid', hmid', fun {drains patience result s'} hrest => ?_⟩
    rw [h.arrived_succ hbatch, precededBy_append, Nat.add_assoc, Nat.add_comm 1]
    exact hdrains (hnext hrest)

end Drains

/-! ## The order of events -/

/-- Whether an event is at a time. -/
def isAt (t : Float) (e : Event Float) : Bool :=
  decide (e.ts ≤ t) && decide (t ≤ e.ts)

/-- Events are those that arrived, in the order of their times, and those of one time in the
order of their arrival. -/
structure SortedStably (arrived events : List (Event Float)) : Prop where
  perm : events.Perm arrived
  ordered : events.Pairwise (·.ts ≤ ·.ts)
  stable : ∀ t, events.filter (isAt t) = arrived.filter (isAt t)

theorem sortedStably_chronological {arrived : List (Event Float)}
    (h : ∀ e ∈ arrived, e.ts ≤ e.ts) : SortedStably arrived (chronological arrived) where
  perm := Quantity.sortedBy_perm Event.ts arrived
  ordered := Quantity.pairwise_sortedBy h
  stable t := by
    refine Quantity.filter_sortedBy h fun a b ha hb => ?_
    simp only [isAt, Bool.and_eq_true, decide_eq_true_eq] at ha hb
    exact Quantity.Ordered.le_trans ha.1 hb.2

/-- Events of a log have times. -/
theorem ts_le_self_of_mem_filterMap {records : List String} :
    ∀ e ∈ records.filterMap classify, e.ts ≤ e.ts := by
  intro e he
  obtain ⟨text, -, hclassify⟩ := List.mem_filterMap.mp he
  exact Binary64.le_self_of_isFinite (ts_isFinite (measurable_of_classify hclassify).times)

/-! ## Collecting -/

theorem collect_run {w : World σ} {session : SessionId} {patience : Nat} {s s' : Situation σ}
    {drained : Except Halt (Except RunError (List (Event Float)))}
    (h : (drainAll session patience).run ⟨w, none, patience⟩ s = (drained, s')) :
    (collect session).run ⟨w, none, patience⟩ s = (drained.map (·.map chronological), s') := by
  have hpatience : (ExceptT.lift Run.patience : Attempt σ Nat).run ⟨w, none, patience⟩ s =
      (.ok (.ok patience), s) := rfl
  refine Attempt.bind_of_ok hpatience ?_
  rw [Attempt.bind_apply, h]
  obtain halt | ⟨e | events⟩ := drained <;> rfl

namespace Drains

variable {w : World σ} {session : SessionId} {s : Situation σ}

/-- The log runs dry: an empty batch comes, and before it only batches with anything in them. -/
def RunsDry (h : Drains w session s) (n : Nat) : Prop :=
  (∀ k < n, GoesOn (h.answers k)) ∧ h.answers n = .ok []

/-- A failure before the first empty batch is the result. -/
theorem collect_of_error (h : Drains w session s) {n : Nat} {e : SessionError}
    (hgo : ∀ k < n, GoesOn (h.answers k)) (he : h.answers n = .error e) :
    ∃ s', h.LeadsTo (n + 1) s' ∧ ∀ patience > n,
      (collect session).run ⟨w, none, patience⟩ s = (.ok (.error (.session e)), s') := by
  obtain ⟨mid, hmid, hdrains⟩ := h.drainAll_of_goesOn hgo
  obtain ⟨s', hs', hcall⟩ := hmid.next hgo
  rw [he] at hcall
  refine ⟨s', hs', fun patience hpatience => ?_⟩
  obtain ⟨drains, rfl⟩ := Nat.exists_eq_add_of_lt hpatience
  have hlast : (drainAll session (drains + 1)).run ⟨w, none, n + (drains + 1)⟩ mid =
      (.ok (.error (.session e)), s') := Attempt.bind_of_error (hcall _)
  exact collect_run (hdrains hlast)

/-- The events of all batches before the first empty one are the result. -/
theorem RunsDry.collect_run {h : Drains w session s} {n : Nat} (hdry : h.RunsDry n) :
    ∃ s', h.LeadsTo (n + 1) s' ∧ ∀ patience > n,
      (collect session).run ⟨w, none, patience⟩ s =
        (.ok (.ok (chronological (h.arrived n))), s') := by
  obtain ⟨mid, hmid, hdrains⟩ := h.drainAll_of_goesOn hdry.1
  obtain ⟨s', hs', hcall⟩ := hmid.next hdry.1
  rw [hdry.2] at hcall
  refine ⟨s', hs', fun patience hpatience => ?_⟩
  obtain ⟨drains, rfl⟩ := Nat.exists_eq_add_of_lt hpatience
  have hlast : (drainAll session (drains + 1)).run ⟨w, none, n + (drains + 1)⟩ mid =
      (.ok (.ok []), s') := Attempt.bind_of_ok (hcall _) rfl
  have hall := hdrains hlast
  rw [precededBy_ok, List.append_nil] at hall
  exact Trace.collect_run hall

/-- As long as batches come, draining goes on. -/
theorem collect_of_goesOn (h : Drains w session s) (hgo : ∀ n, GoesOn (h.answers n))
    (patience : Nat) : ∃ s', h.LeadsTo patience s' ∧
      (collect session).run ⟨w, none, patience⟩ s = (.error .stuck, s') := by
  obtain ⟨mid, hmid, hdrains⟩ := h.drainAll_of_goesOn fun k (_ : k < patience) => hgo k
  have hnever : (drainAll session 0).run ⟨w, none, patience⟩ mid = (.error .stuck, mid) := rfl
  exact ⟨mid, hmid, Trace.collect_run (hdrains hnever)⟩

end Drains

/-- The events of a session are collected up to the first empty batch, and sorted by their times,
which is stable. A failure before it is the result instead, and while batches come, draining goes
on. How the same records come in batches makes no difference. -/
theorem events_of_drains {w : World σ} {session : SessionId} {s : Situation σ}
    (h : Drains w session s) :
    (∀ n e, (∀ k < n, GoesOn (h.answers k)) → h.answers n = .error e →
      ∃ s', h.LeadsTo (n + 1) s' ∧ ∀ patience > n,
        (collect session).run ⟨w, none, patience⟩ s = (.ok (.error (.session e)), s')) ∧
    (∀ n, h.RunsDry n → ∃ events s', h.LeadsTo (n + 1) s' ∧
      (∀ patience > n, (collect session).run ⟨w, none, patience⟩ s = (.ok (.ok events), s')) ∧
      SortedStably (h.arrived n) events) ∧
    ((∀ n, GoesOn (h.answers n)) → ∀ patience, ∃ s', h.LeadsTo patience s' ∧
      (collect session).run ⟨w, none, patience⟩ s = (.error .stuck, s')) ∧
    ∀ {τ : Type} {w' : World τ} {session' : SessionId} {s' : Situation τ}
      (h' : Drains w' session' s') {n n' : Nat},
      h.RunsDry n → h'.RunsDry n' → h'.records n' = h.records n →
      ∀ patience > n, ∀ patience' > n',
        ((collect session').run ⟨w', none, patience'⟩ s').1 =
          ((collect session).run ⟨w, none, patience⟩ s).1 := by
  refine ⟨fun n e => h.collect_of_error, fun n hdry => ?_, h.collect_of_goesOn, ?_⟩
  · obtain ⟨s', hs', hcollect⟩ := hdry.collect_run
    exact ⟨_, s', hs', hcollect, sortedStably_chronological ts_le_self_of_mem_filterMap⟩
  · intro τ w' session' s' h' n n' hdry hdry' hrecords patience hpatience patience' hpatience'
    obtain ⟨_, -, hcollect⟩ := hdry.collect_run
    obtain ⟨_, -, hcollect'⟩ := hdry'.collect_run
    rw [hcollect patience hpatience, hcollect' patience' hpatience', Drains.arrived, hrecords]
    rfl

/-! ### An example -/

/-- An outside whose drains are answered with the members of a sequence in turn. -/
def replaying (answers : Nat → Except SessionError (List String)) : World Nat where
  receive _ drained := (.after 0, drained)
  answer
    | .openSession _, _, drained => (.ok (), drained)
    | .call _ .drain, _, drained => (answers drained, drained + 1)
    | .call _ c, _, drained => (.ok c.plainReply, drained)
    | .audit .., _, drained => (.error (.audit "no report"), drained)

/-- Any sequence of answers is that of some session. -/
def Drains.ofAnswers (answers : Nat → Except SessionError (List String)) (session : SessionId)
    (disk : Disk) : Drains (replaying answers) session (.start 0 disk) where
  answers := answers
  time _ := 0
  outside := id
  now_eq := rfl
  outside_eq := rfl
  drain n _ := ⟨0, n, rfl, rfl, rfl⟩

open Worker (traceRecord markerRecord) in
/-- Three batches, of which the second one has no record of an event. -/
def scatteredAnswers : Nat → Except SessionError (List String)
  | 0 => .ok [markerRecord .run 7, ""]
  | 1 => .ok [""]
  | 2 => .ok [traceRecord "Paint" 7 .null, traceRecord "navigationStart" 5 .null]
  | _ => .ok []

/-- The paint comes after the marker of its time, which arrived before it. -/
theorem events_of_scattered_drains :
    (Drains.ofAnswers scatteredAnswers 0 (.empty [])).RunsDry 3 ∧
    ∃ events s', (∀ patience > 3, (collect 0).run ⟨replaying scatteredAnswers, none, patience⟩
        (.start 0 (.empty [])) = (.ok (.ok events), s')) ∧
      SortedStably [.marker .run 7, .paint 7 0, .navigationStart 5] events := by
  have hdry : (Drains.ofAnswers scatteredAnswers 0 (.empty [])).RunsDry 3 := by
    refine ⟨fun k hk => ?_, rfl⟩
    match k with
    | 0 | 1 | 2 => exact ⟨_, rfl, List.cons_ne_nil _ _⟩
  have harrived : (Drains.ofAnswers scatteredAnswers 0 (.empty [])).arrived 3 =
      [.marker .run 7, .paint 7 0, .navigationStart 5] := by decide +kernel
  obtain ⟨events, s', -, hcollect, hsorted⟩ :=
    (events_of_drains (Drains.ofAnswers scatteredAnswers 0 (.empty []))).2.1 3 hdry
  exact ⟨hdry, events, s', hcollect, harrived ▸ hsorted⟩

end Trace

end PaintBench
