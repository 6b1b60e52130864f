import PaintBench.Proofs.Page.ElementPath
import PaintBench.Proofs.Session.Proceeds

/-!
# Lookups on a page

`Dom.LookedUp` tells what is asked when a node is looked up, and what is found. The root comes
first (`Dom.Rooted`); a path is followed from there with one query a segment (`Dom.Located`).

A lookup only looks (`LookedUp.looks`). What it finds is what its last query returned
(`LookedUp.exists_last_query`). Along a path nothing is found if some query was not answered with
a node, be it that there is none or that the query failed (`Located.exists_missed`).
-/

namespace PaintBench

/-- There is a segment in a path at least. -/
theorem ElementPath.segments_ne_nil (path : ElementPath) : path.segments ≠ [] := by
  have hreads := path.reads
  rw [Segment.readAll_eq] at hreads
  split at hreads
  · cases hreads
  · next hne =>
    intro hnil
    rw [hnil] at hreads
    cases hparts : Segment.parts path.text.toList with
    | nil => exact hne hparts
    | cons part rest =>
      rw [hparts] at hreads
      obtain ⟨segment, -, hreads⟩ := bind_eq_ok_iff.mp hreads
      obtain ⟨segments, -, hreads⟩ := bind_eq_ok_iff.mp hreads
      cases hreads

/-- Whether a request asks where a node is. -/
def Request.Looks : Request → Prop
  | .call _ .documentBody | .call _ (.shadowRoot _) | .call _ (.query ..) => True
  | _ => False

/-- An answered query. -/
def Exchange.query (session : SessionId) (scope : Node) (selector : String) (time : Nat)
    (answer : Except SessionError (Option Node)) : Exchange :=
  ⟨time, .call session (.query scope selector), answer⟩

theorem Exchange.answer_eq_of_query_eq {session session' : SessionId} {scope scope' : Node}
    {selector selector' : String} {time time' : Nat}
    {answer answer' : Except SessionError (Option Node)}
    (h : query session scope selector time answer = query session' scope' selector' time' answer') :
    answer = answer' := by
  cases h
  rfl

/-! ## Along the segments of a path -/

/-- The queries that follow segments from a node, and what is found. -/
inductive Located (session : SessionId) : Node → List Segment → Procedure (Option Node)
  | found (node : Node) : Located session node [] [] (.ok (some node))
  | goesOn {node next : Node} {segment : Segment} {rest : List Segment} {time : Nat}
    {trace : List Exchange} {result : Except Halt (Option Node)} :
    Located session next rest trace result →
      Located session node (segment :: rest)
        (.query session node segment.selector time (.ok (some next)) :: trace) result
  | misses {node : Node} {segment : Segment} {rest : List Segment} {time : Nat}
    {answer : Except SessionError (Option Node)} : (∀ next, answer ≠ .ok (some next)) →
      Located session node (segment :: rest) [.query session node segment.selector time answer]
        (.ok none)
  | halts {node : Node} {segment : Segment} {rest : List Segment} (halt : Halt) :
    Located session node (segment :: rest) [] (.error halt)

namespace Located

variable {session : SessionId} {node : Node} {segments : List Segment} {trace : List Exchange}
  {result : Except Halt (Option Node)}

theorem looks (h : Located session node segments trace result) :
    ∀ e ∈ trace, e.request.Looks := by
  induction h with
  | found | halts => exact fun e he => absurd he List.not_mem_nil
  | goesOn _ ih => exact List.forall_mem_cons.mpr ⟨trivial, ih⟩
  | misses => exact List.forall_mem_singleton.mpr trivial

/-- A node at the end of segments was returned by the last query. -/
theorem exists_last_query {found : Node}
    (h : Located session node segments trace (.ok (some found))) (hne : segments ≠ []) :
    ∃ before scope selector time,
      trace = before ++ [.query session scope selector time (.ok (some found))] := by
  generalize hresult : Except.ok (some found) = result at h
  induction h with
  | @goesOn node next segment rest time trace result h ih =>
    cases rest with
    | nil =>
      cases h
      cases hresult
      exact ⟨[], node, segment.selector, time, rfl⟩
    | cons segment' rest =>
      obtain ⟨before, scope, selector, time', rfl⟩ := ih (List.cons_ne_nil _ _) hresult
      exact ⟨_ :: before, scope, selector, time', rfl⟩
  | found => exact absurd rfl hne
  | misses | halts => cases hresult

/-- Nothing is found if the query of some segment is not answered with a node. -/
theorem exists_missed (h : Located session node segments trace (.ok none)) :
    ∃ before segment after way scope time answer,
      segments = before ++ segment :: after ∧ Located session node before way (.ok (some scope)) ∧
      (∀ next, answer ≠ .ok (some next)) ∧
      trace = way ++ [.query session scope segment.selector time answer] := by
  generalize hresult : Except.ok none = result at h
  induction h with
  | goesOn _ ih =>
    obtain ⟨before, segment, after, way, scope, time, answer, rfl, hway, hanswer, rfl⟩ := ih hresult
    exact ⟨_ :: before, segment, after, _ :: way, scope, time, answer, rfl, .goesOn hway, hanswer,
      rfl⟩
  | @misses node segment rest time answer hanswer =>
    exact ⟨[], segment, rest, [], node, time, answer, rfl, .found node, hanswer, rfl⟩
  | found | halts => cases hresult

/-- As long as the way along the segments is not finished, all queries have found a node. -/
theorem query_found {halt : Halt} {scope : Node} {selector : String} {time : Nat}
    {answer : Except SessionError (Option Node)}
    (h : Located session node segments trace (.error halt))
    (hquery : .query session scope selector time answer ∈ trace) :
    ∃ found, answer = .ok (some found) := by
  generalize hresult : Except.error halt = result at h
  induction h with
  | goesOn _ ih =>
    rcases List.mem_cons.mp hquery with heq | hquery
    · exact ⟨_, Exchange.answer_eq_of_query_eq heq⟩
    · exact ih hquery hresult
  | halts => exact absurd hquery List.not_mem_nil
  | found | misses => cases hresult

end Located

/-! ## From the root -/

namespace Dom

variable {σ : Type}

section

variable (d : Dom)

/-- An exchange about the root. -/
inductive RootAsked : Exchange → Except SessionError (Option Node) → Prop
  | body (h : d.shadowHost = none) (time : Nat) (answer : Except SessionError (Option Node)) :
    RootAsked ⟨time, .call d.session .documentBody, answer⟩ answer
  | shadowRoot {host : String} (h : d.shadowHost = some host) (time : Nat)
    (answer : Except SessionError (Option Node)) :
    RootAsked ⟨time, .call d.session (.shadowRoot host), answer⟩ answer

/-- The question for the root, and which node it is. -/
inductive Rooted : Procedure (Except RunError Node)
  | found {e : Exchange} {node : Node} : d.RootAsked e (.ok (some node)) →
    Rooted [e] (.ok (.ok node))
  | missing {e : Exchange} : d.RootAsked e (.ok none) →
    Rooted [e] (.ok (.error (.notFound d.rootName)))
  | fails {e : Exchange} {failure : SessionError} : d.RootAsked e (.error failure) →
    Rooted [e] (.ok (.error (.session failure)))
  | halts (halt : Halt) : Rooted [] (.error halt)

/-- What is asked when a target is looked up, and what is found. -/
inductive LookedUp : Target → Procedure (Except RunError (Option Node))
  | withId {id : String} {first rest : List Exchange} {root : Node}
    {result : Except Halt (Except RunError (Option Node))} :
    d.Rooted first (.ok (.ok root)) →
      Called (.query d.session root (Selector.ofId id)) rest result →
      LookedUp (.withId id) (first ++ rest) result
  | atPath {path : ElementPath} {first rest : List Exchange} {root : Node}
    {result : Except Halt (Option Node)} :
    d.Rooted first (.ok (.ok root)) → Located d.session root path.segments rest result →
      LookedUp (.atPath path) (first ++ rest) (result.map .ok)
  | rootless {target : Target} {trace : List Exchange} {e : RunError} :
    d.Rooted trace (.ok (.error e)) → LookedUp target trace (.ok (.error e))
  | halts {target : Target} {trace : List Exchange} {halt : Halt} :
    d.Rooted trace (.error halt) → LookedUp target trace (.error halt)

end

variable {d : Dom} {target : Target} {path : ElementPath} {trace : List Exchange}

theorem RootAsked.looks {e : Exchange} {answer : Except SessionError (Option Node)}
    (h : d.RootAsked e answer) : e.request.Looks := by
  cases h <;> trivial

theorem Rooted.looks {result : Except Halt (Except RunError Node)} (h : d.Rooted trace result) :
    ∀ e ∈ trace, e.request.Looks := by
  cases h with
  | found h | missing h | fails h => exact List.forall_mem_singleton.mpr h.looks
  | halts => exact fun e he => absurd he List.not_mem_nil

theorem RootAsked.ne_query {e : Exchange} {answer answer' : Except SessionError (Option Node)}
    {scope : Node} {selector : String} {time : Nat} (h : d.RootAsked e answer) :
    .query d.session scope selector time answer' ≠ e := by
  rintro rfl
  cases h

/-- One answer tells the root. -/
theorem Rooted.length_eq {result : Except RunError Node} (h : d.Rooted trace (.ok result)) :
    trace.length = 1 := by
  cases h <;> rfl

namespace LookedUp

theorem looks {result : Except Halt (Except RunError (Option Node))}
    (h : d.LookedUp target trace result) : ∀ e ∈ trace, e.request.Looks := by
  cases h with
  | withId hroot hquery =>
    refine List.forall_mem_append.mpr ⟨hroot.looks, ?_⟩
    cases hquery with
    | answer => exact List.forall_mem_singleton.mpr trivial
    | halt => exact fun e he => absurd he List.not_mem_nil
  | atPath hroot hlocated => exact List.forall_mem_append.mpr ⟨hroot.looks, hlocated.looks⟩
  | rootless hroot | halts hroot => exact hroot.looks

/-- A lookup along a path goes from a root. -/
theorem exists_located {found : Option Node}
    (h : d.LookedUp (.atPath path) trace (.ok (.ok found))) :
    ∃ first rest root, trace = first ++ rest ∧ d.Rooted first (.ok (.ok root)) ∧
      Located d.session root path.segments rest (.ok found) := by
  generalize hresult : Except.ok (Except.ok found) = result at h
  cases h with
  | @atPath path first rest root result hroot hlocated =>
    cases result <;> cases hresult
    exact ⟨first, rest, root, rfl, hroot, hlocated⟩
  | rootless | halts => cases hresult

/-- A lookup along a path fails only at the root. -/
theorem rooted_of_error {e : RunError} (h : d.LookedUp (.atPath path) trace (.ok (.error e))) :
    d.Rooted trace (.ok (.error e)) := by
  generalize hresult : Except.ok (Except.error e) = result at h
  cases h with
  | @atPath path first rest root result => cases result <;> cases hresult
  | rootless hroot =>
    cases hresult
    exact hroot
  | halts => cases hresult

/-- As long as a lookup is not finished, all queries have found a node. -/
theorem query_found {halt : Halt} {scope : Node} {selector : String} {time : Nat}
    {answer : Except SessionError (Option Node)}
    (h : d.LookedUp (.atPath path) trace (.error halt))
    (hquery : .query d.session scope selector time answer ∈ trace) :
    ∃ found, answer = .ok (some found) := by
  generalize hresult : Except.error halt = result at h
  cases h with
  | @atPath path first rest root result hroot hlocated =>
    cases result <;> cases hresult
    refine hlocated.query_found ((List.mem_append.mp hquery).resolve_left fun hfirst => ?_)
    cases hroot with
    | found hasked => exact hasked.ne_query (List.mem_singleton.mp hfirst)
  | halts hroot =>
    cases hroot
    exact absurd hquery List.not_mem_nil
  | rootless => cases hresult

/-- A node that was looked up was returned by the last query. -/
theorem exists_last_query {node : Node} (h : d.LookedUp target trace (.ok (.ok (some node)))) :
    ∃ before scope selector time,
      trace = before ++ [.query d.session scope selector time (.ok (some node))] := by
  cases target with
  | withId id =>
    cases h with
    | @withId id first rest root result hroot hquery =>
      obtain ⟨time, rfl⟩ := hquery.exists_success
      exact ⟨first, root, Selector.ofId id, time, rfl⟩
  | atPath path =>
    obtain ⟨first, rest, root, rfl, -, hlocated⟩ := h.exists_located
    obtain ⟨before, scope, selector, time, rfl⟩ :=
      hlocated.exists_last_query path.segments_ne_nil
    exact ⟨first ++ before, scope, selector, time, (List.append_assoc _ _ _).symm⟩

end LookedUp

/-! ## The lookups of a page -/

variable (d)

/-- Where a call asks for the root, it tells which node that is. -/
theorem proceeds_rootOf {exchange : Nat → Except SessionError (Option Node) → Exchange}
    {ask : Attempt σ (Option Node)} (h : Attempt.Proceeds (Called exchange) ask)
    (hasked : ∀ time answer, d.RootAsked (exchange time answer) answer) :
    Attempt.Proceeds d.Rooted (ask >>= present d.rootName) := by
  refine h.bind (q := fun node trace result =>
    ∀ e, d.RootAsked e (.ok node) → d.Rooted (e :: trace) result) ?_ ?_ ?_ ?_
  · intro node
    cases node with
    | none => exact .fail fun e he => .missing he
    | some node => exact .pure fun e he => .found he
  · intro trace halt h
    cases h
    exact .halts halt
  · intro trace e h
    obtain ⟨time, failure, rfl, rfl⟩ := h.exists_failure
    exact .fails (hasked time (.error failure))
  · intro first node rest result h hq
    obtain ⟨time, rfl⟩ := h.exists_success
    exact hq _ (hasked time (.ok node))

theorem proceeds_root : Attempt.Proceeds d.Rooted (d.root : Attempt σ Node) := by
  rw [root]
  split
  · next host hhost =>
    exact d.proceeds_rootOf (Attempt.proceeds_call d.session (.shadowRoot host)) (.shadowRoot hhost)
  · next hhost =>
    exact d.proceeds_rootOf (Attempt.proceeds_call d.session .documentBody) (.body hhost)

theorem proceeds_locate (node : Node) (segments : List Segment) :
    Run.Proceeds (Located d.session node segments)
      (d.locate node segments : Run σ (Option Node)) := by
  induction segments generalizing node with
  | nil => exact .pure (.found node)
  | cons segment rest ih =>
    refine Run.Proceeds.bind (Run.proceeds_ask _)
      (q := fun answer trace result => ∀ time, Located d.session node (segment :: rest)
        (.query d.session node segment.selector time answer :: trace) result) ?_ ?_ ?_
    · intro answer
      split
      · next next => exact fun terms s =>
          (ih next terms s).imp fun trace h => ⟨h.1, fun time => .goesOn h.2⟩
      · next hother =>
        exact .pure fun time => .misses fun next h => hother next h
    · intro trace halt h
      obtain rfl := h.eq_nil
      exact .halts halt
    · intro first answer rest result h hq
      obtain ⟨time, rfl⟩ := h.exists_eq
      exact hq time

/-- A target is looked up from the root. -/
theorem proceeds_findTarget (target : Target) :
    Attempt.Proceeds (d.LookedUp target) (d.findTarget target : Attempt σ (Option Node)) := by
  cases target with
  | withId id =>
    exact d.proceeds_root.bind (fun root => Attempt.proceeds_call d.session
      (.query root (Selector.ofId id))) .halts .rootless .withId
  | atPath path =>
    exact d.proceeds_root.bind (fun root => .lift (d.proceeds_locate root path.segments)) .halts
      .rootless fun hroot ⟨_, hlocated, hresult⟩ => hresult ▸ .atPath hroot hlocated

end Dom

end PaintBench
