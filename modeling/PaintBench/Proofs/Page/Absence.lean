import PaintBench.Proofs.Page.Lookup

/-!
# Waits for absence

A wait for the absence of an element succeeds if there was a root in its last poll and the query of
a segment was not answered with a node (`Dom.absence_is_seen_below_a_root`). A root that cannot be
had never ends it. A query that fails does so, just like one that finds nothing
(`Dom.failed_query_ends_wait`).
-/

namespace PaintBench.Dom

variable {σ : Type} {d : Dom} {path : ElementPath} {poll : List Exchange}
  {answer : Except SessionError (Option Node)}

/-! ## What a poll sees -/

/-- A poll in which there was a root, and which went along the path to a segment whose query had an
answer and was the last. -/
def EndedBy (d : Dom) (path : ElementPath) (answer : Except SessionError (Option Node))
    (poll : List Exchange) : Prop :=
  ∃ first root before segment after way scope time,
    d.Rooted first (.ok (.ok root)) ∧ path.segments = before ++ segment :: after ∧
    Located d.session root before way (.ok (some scope)) ∧
    poll = first ++ way ++ [.query d.session scope segment.selector time answer]

/-- A poll that was ended by a query which found nothing, or failed. -/
def Misses (d : Dom) (path : ElementPath) (poll : List Exchange) : Prop :=
  d.EndedBy path (.ok none) poll ∨ ∃ e, d.EndedBy path (.error e) poll

/-- A poll in which no root was had. -/
def Rootless (d : Dom) (poll : List Exchange) : Prop :=
  ∃ e, d.Rooted poll (.ok (.error e))

theorem EndedBy.exists_mem (h : d.EndedBy path answer poll) :
    ∃ (scope : Node) (segment : Segment) (time : Nat),
      Exchange.query d.session scope segment.selector time answer ∈ poll := by
  obtain ⟨first, root, before, segment, after, way, scope, time, -, -, -, rfl⟩ := h
  exact ⟨scope, segment, time, List.mem_append_right _ (List.mem_singleton_self _)⟩

theorem EndedBy.not_rootless (h : d.EndedBy path answer poll) : ¬d.Rootless poll := by
  rintro ⟨e, hrootless⟩
  obtain ⟨first, root, before, segment, after, way, scope, time, hroot, -, -, rfl⟩ := h
  have hlength := hrootless.length_eq
  rw [List.length_append, List.length_append, hroot.length_eq, List.length_singleton] at hlength
  omega

theorem Misses.exists_endedBy (h : d.Misses path poll) :
    ∃ answer, (∀ node, answer ≠ .ok (some node)) ∧ d.EndedBy path answer poll := by
  obtain hnone | ⟨e, hfailed⟩ := h
  · exact ⟨.ok none, nofun, hnone⟩
  · exact ⟨.error e, nofun, hfailed⟩

theorem Misses.not_rootless (h : d.Misses path poll) : ¬d.Rootless poll := by
  obtain ⟨answer, -, hended⟩ := h.exists_endedBy
  exact hended.not_rootless

namespace LookedUp

/-- A lookup that finds nothing was ended by the query of a segment. -/
theorem misses (h : d.LookedUp (.atPath path) poll (.ok (.ok none))) : d.Misses path poll := by
  obtain ⟨first, rest, root, rfl, hroot, hlocated⟩ := h.exists_located
  obtain ⟨before, segment, after, way, scope, time, answer, hsegments, hway, hanswer, rfl⟩ :=
    hlocated.exists_missed
  have hended : d.EndedBy path answer
      (first ++ (way ++ [.query d.session scope segment.selector time answer])) :=
    ⟨first, root, before, segment, after, way, scope, time, hroot, hsegments, hway,
      (List.append_assoc _ _ _).symm⟩
  rcases answer with e | _ | node
  · exact Or.inr ⟨e, hended⟩
  · exact Or.inl hended
  · exact absurd rfl (hanswer node)

/-- A lookup that is not finished has not been ended by a query. -/
theorem not_misses {halt : Halt} (h : d.LookedUp (.atPath path) poll (.error halt)) :
    ¬d.Misses path poll := by
  intro hmisses
  obtain ⟨answer, hanswer, hended⟩ := hmisses.exists_endedBy
  obtain ⟨scope, segment, time, hquery⟩ := hended.exists_mem
  obtain ⟨node, hnode⟩ := h.query_found hquery
  exact hanswer node hnode

end LookedUp

/-! ## Waits -/

/-- A poll for the absence of an element. -/
theorem proceeds_isAbsent (d : Dom) (path : ElementPath) :
    Attempt.Proceeds (fun trace result => ∃ found, d.LookedUp (.atPath path) trace found ∧
        result = found.map (Except.map Option.isNone))
      (do return (← d.find path).isNone : Attempt σ Bool) := by
  refine (d.proceeds_findTarget (.atPath path)).bind
    (q := fun node trace result => trace = [] ∧ result = .ok (.ok node.isNone))
    (fun node => .pure ⟨rfl, rfl⟩) (fun h => ⟨_, h, rfl⟩) (fun h => ⟨_, h, rfl⟩) ?_
  rintro first node rest result h ⟨rfl, rfl⟩
  exact ⟨_, (List.append_nil first).symm ▸ h, rfl⟩

/-- A wait for the absence of an element succeeds if its last poll found a root and no node for
some segment of the path: the query of the segment told that there is none, or failed. In every
poll before it there was no root, or the element was found. -/
theorem absence_is_seen_below_a_root (d : Dom) (path : ElementPath) (limit : Duration)
    (terms : Terms σ) (s : Situation σ) :
    let outcome := (d.waitForPathAbsent path limit).run.outcome terms s
    ∃ (earlier : List (List Exchange)) (last : List Exchange),
      Asked s (earlier.flatten ++ last) outcome.2 ∧
      (outcome.1 = .ok (.ok ()) ↔ d.Misses path last) ∧
      ¬(outcome.1 = .ok (.ok ()) ∧ d.Rootless last) ∧
      ∀ poll ∈ earlier, d.Rootless poll ∨
        ∃ node, d.LookedUp (.atPath path) poll (.ok (.ok (some node))) := by
  intro outcome
  obtain ⟨trace, hasked, polling, hpolled, hsucceeds⟩ := Attempt.proceeds_waitUntil d.pollInterval
    ("no element " ++ path.text) limit (d.proceeds_isAbsent path) terms s
  obtain ⟨earlier, last, rfl, hearlier, hlast⟩ := hpolled.exists_polls
  have hmisses : outcome.1 = .ok (.ok ()) ↔ d.Misses path last := by
    refine hsucceeds.trans ?_
    obtain ⟨rfl, found, hlookup, hfound⟩ | ⟨halt, rfl, ⟨found, hlookup, hfound⟩ | rfl⟩ := hlast
    · rcases found with halt | e | _ | node <;> cases hfound
      exact iff_of_true rfl hlookup.misses
    · rcases found with halt | found <;> cases hfound
      exact iff_of_false nofun hlookup.not_misses
    · refine iff_of_false nofun fun hmisses => ?_
      obtain ⟨answer, -, hended⟩ := hmisses.exists_endedBy
      obtain ⟨scope, segment, time, hquery⟩ := hended.exists_mem
      exact List.not_mem_nil hquery
  refine ⟨earlier, last, hasked, hmisses, fun h => (hmisses.mp h.1).not_rootless h.2, ?_⟩
  intro poll hpoll
  obtain ⟨held, hheld, found, hlookup, hresult⟩ := hearlier poll hpoll
  rcases found with halt | e | _ | node
  · cases hresult
  · exact Or.inl ⟨e, hlookup.rooted_of_error⟩
  · cases hresult
    exact absurd rfl hheld
  · exact Or.inr ⟨node, hlookup⟩

/-! ### A table that is waited for to go away -/

/-- An outside in which questions for nodes are answered one after the other. -/
def scripted : World (List (Except SessionError (Option Node))) where
  receive _ script := (.after 0, script)
  answer
    | .call _ .documentBody, _, script => (script.headD (.error .closed), script.tail)
    | .call _ (.query ..), _, script => (script.headD (.error .closed), script.tail)
    | .call _ _, _, script => (.error .closed, script)
    | .openSession _, _, script => (.ok (), script)
    | .audit .., _, script => (.error (.audit "no report"), script)

/-- A page without a shadow root. -/
def plainPage : Dom :=
  ⟨0, none, .ofMilliseconds 300, .ofMilliseconds 20⟩

/-- The path of a table. -/
def tablePath : ElementPath :=
  ⟨"//tbody", [⟨"tbody", 1⟩], rfl⟩

/-- The wait for a table to go away. -/
def tableGone (script : List (Except SessionError (Option Node))) :=
  (plainPage.waitForPathAbsent tablePath (.ofMilliseconds 50)).run.outcome ⟨scripted, none, 0⟩
    (.start script (.empty []))

/-- The table is gone in the second poll, and in the first one there was no body. -/
theorem absence_is_seen_below_body :
    let script := [.error .staleElement, .ok (some 0), .ok none]
    (tableGone script).1 = .ok (.ok ()) ∧ (tableGone script).2.now = 20 ∧
    ∃ (earlier : List (List Exchange)) (last : List Exchange),
      Asked (.start script (.empty [])) (earlier.flatten ++ last) (tableGone script).2 ∧
      ((tableGone script).1 = .ok (.ok ()) ↔ plainPage.Misses tablePath last) ∧
      ¬((tableGone script).1 = .ok (.ok ()) ∧ plainPage.Rootless last) ∧
      ∀ poll ∈ earlier, plainPage.Rootless poll ∨
        ∃ node, plainPage.LookedUp (.atPath tablePath) poll (.ok (.ok (some node))) := by
  refine ⟨rfl, rfl, ?_⟩
  exact absence_is_seen_below_a_root plainPage tablePath (.ofMilliseconds 50) ⟨scripted, none, 0⟩ _

/-- A query that fails ends the wait, without any answer that there is no table. -/
theorem failed_query_ends_wait :
    let script := [.ok (some 0), .error (.protocol "lost")]
    (tableGone script).1 = .ok (.ok ()) ∧
      ¬∃ (earlier : List (List Exchange)) (last : List Exchange),
        Asked (.start script (.empty [])) (earlier.flatten ++ last) (tableGone script).2 ∧
        plainPage.EndedBy tablePath (.ok none) last := by
  refine ⟨rfl, ?_⟩
  rintro ⟨earlier, last, hasked, hended⟩
  obtain ⟨scope, segment, time, hquery⟩ := hended.exists_mem
  rcases List.mem_cons.mp (hasked.mem_journal (List.mem_append_right _ hquery)) with hlost | hbody
  · cases Exchange.answer_eq_of_query_eq hlost
  · cases List.mem_singleton.mp hbody

end PaintBench.Dom
