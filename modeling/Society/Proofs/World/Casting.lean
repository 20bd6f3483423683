import Society.Proofs.Query.Soundness
import Society.Proofs.World.Lasting

/-!
# Roles and the agents that take them

Dispatching an event binds each role to the text of an agent's name. The query of a response's
preconditions reads that text as a value and gives the value back, and what it gives back hides the
text. So a name that writes a number comes back as the number is shown.
-/

namespace Society

namespace EffectContext

variable {ctx : EffectContext} {more : RawBindings} {name : String} {v : RawValue}

theorem get?_withBindings (h : more.get? name = some v) :
    (ctx.withBindings more).bindings.get? name = some v :=
  Dict.get?_foldl_insert_of_mem more.nodup_keys (Dict.get?_eq_some_iff.mp h) _

end EffectContext

/-! ## What a query gives back -/

/-- The value that a query gives back for a caller's value. -/
def RawValue.returned (v : RawValue) : RawValue :=
  (NodeValue.ofRaw v).toRaw

theorem RawValue.display_returned_text (s : String) :
    (text s).returned.display =
      ((NodeValue.number? (Text.trim s.toList)).elim s fun v => v.toRaw.display) := by
  simp only [returned, NodeValue.ofRaw]
  cases NodeValue.number? (Text.trim s.toList) <;> rfl

/-- A query that succeeds from some rows has rows, and each gives back the values of one of those. -/
theorem FactDatabase.returned_of_query {db : FactDatabase} (hdb : db.Sound) {clauses : List String}
    {rows : List RawBindings} (hrows : rows ≠ []) {answer : QueryResult}
    (h : db.query clauses rows = .ok answer) (hs : answer.success = true) :
    answer.rows ≠ [] ∧ ∀ row ∈ answer.rows, ∃ given ∈ rows,
      ∀ name v, given.get? name = some v → row.get? name = some v.returned := by
  obtain ⟨last, hall, rfl⟩ := query_eq_ok h
  rw [QueryState.success_toResult] at hs
  have hlast : last.toResult.rows = last.rows.map Bindings.toRaw := by
    rw [QueryState.toResult, if_pos hs]
  obtain ⟨hne, hadmits, -⟩ := evaluateAll_narrows hdb hall hs
  have hstart : rows.map RawBindings.toBindings ≠ [] := by simpa using hrows
  rw [hlast]
  refine ⟨by simpa using hne hstart, fun row hrow => ?_⟩
  obtain ⟨r, hr, rfl⟩ := List.mem_map.mp hrow
  obtain ⟨given', hgiven', hext⟩ :=
    (hadmits r (QueryState.admits_of_mem hr)).resolve_left hstart
  obtain ⟨given, hgiven, rfl⟩ := List.mem_map.mp hgiven'
  refine ⟨given, hgiven, fun name v hv => ?_⟩
  have hbound := hext name (.ofRaw v) (by simp [RawBindings.toBindings, Dict.get?_map, hv])
  rw [Bindings.toRaw, Dict.get?_map, hbound]
  rfl

/-! ## The contexts of a dispatch -/

namespace Act

theorem exists_row_of_mem_responseContexts {ctx scope : EffectContext} {response : EventResponse}
    {answer : QueryResult} (h : scope ∈ responseContexts ctx response answer)
    (hne : answer.rows ≠ []) :
    ∃ row ∈ answer.rows, scope.bindings = (ctx.withBindings row).bindings := by
  have hrows : answer.rows.isEmpty = false := by simpa using hne
  simp only [responseContexts, hrows, Bool.false_eq_true, if_false] at h
  split at h
  · obtain ⟨row, hrow, rfl⟩ := List.mem_map.mp h
    exact ⟨row, hrow, rfl⟩
  · obtain ⟨inner, hinner, rfl⟩ := List.mem_map.mp h
    obtain ⟨row, hrow, rfl⟩ := List.mem_map.mp hinner
    exact ⟨row, hrow, rfl⟩

/-- Every role is bound to the name of the agent in its place. -/
theorem get?_eventContext {e : SocialEvent} {agents : List String} (hnodup : e.roles.Nodup) {i : Nat}
    {role uid : String} (hrole : e.roles[i]? = some role) (huid : agents[i]? = some uid) :
    (eventContext e agents).bindings.get? role = some (.text uid) := by
  have hkeys (roles agents : List String) :
      ((roles.zip agents).map fun e => (e.1, RawValue.text e.2)).map (·.1) =
        roles.take agents.length := by
    induction roles generalizing agents with
    | nil => simp
    | cons role roles ih => cases agents <;> simp_all
  have hmem : (role, uid) ∈ e.roles.zip agents :=
    List.mem_of_getElem? (List.getElem?_zip_eq_some.mpr ⟨hrole, huid⟩)
  apply Dict.get?_foldl_insert_of_mem
  · rw [hkeys]
    exact hnodup.sublist (List.take_sublist _ _)
  · exact List.mem_map.mpr ⟨(role, uid), hmem, rfl⟩

end Act

namespace World

/-- While an event is dispatched, the effects of one of its responses are created in a context: the
responses before have followed, and the preconditions of this one hold in the world that they left. -/
structure Stages (w : World) (name : String) (agents : List String) (e : SocialEvent)
    (response : EventResponse) (scope : EffectContext) : Prop where
  registered : w.events.get? (SocialEvent.symbolOf name agents.length) = some e
  staged : ∃ before after u answer,
    e.responses = before ++ response :: after ∧
    (before.forM (Act.respond name (Act.eventContext e agents))).runOn w = (.ok ⟨⟩, u) ∧
    u.facts.query response.preconditions [(Act.eventContext e agents).bindings] = .ok answer ∧
    answer.success = true ∧ scope ∈ Act.responseContexts (Act.eventContext e agents) response answer

variable {w : World} {name : String} {agents : List String} {e : SocialEvent}
  {response : EventResponse} {scope : EffectContext}

theorem Reached.bindings_of_stages (hw : w.Reached) (h : w.Stages name agents e response scope)
    (hnodup : e.roles.Nodup) {i : Nat} {role uid : String} (hrole : e.roles[i]? = some role)
    (huid : agents[i]? = some uid) :
    scope.bindings.get? role = some (RawValue.text uid).returned := by
  obtain ⟨-, before, after, u, answer, -, hrun, hquery, hs, hscope⟩ := h
  have hsound : u.facts.Sound := by
    have htidy : (before.forM (Act.respond name (Act.eventContext e agents))).Keeps Tidy :=
      Act.Keeps.forM fun r => Act.ensures_respond Act.steady_tidy name _ r
    have hu := htidy.holds hw.tidy
    rw [hrun] at hu
    exact hu.facts
  obtain ⟨hne, hreturned⟩ := FactDatabase.returned_of_query hsound (by simp) hquery hs
  obtain ⟨row, hrow, hbindings⟩ := Act.exists_row_of_mem_responseContexts hscope hne
  obtain ⟨given, hgiven, hvalues⟩ := hreturned row hrow
  obtain rfl := List.mem_singleton.mp hgiven
  rw [hbindings]
  exact EffectContext.get?_withBindings (hvalues role _ (Act.get?_eventContext hnodup hrole huid))

/-- In every context of a dispatch the role of an agent stands for its name, read as a value and
written again. That is the name itself exactly if the number that it writes, should it write one, is
shown so. -/
theorem Reached.casting (hw : w.Reached) (h : w.Stages name agents e response scope)
    (hnodup : e.roles.Nodup) (hvar : ∀ role ∈ e.roles, role.toList.head? = some '?') {i : Nat}
    {role uid : String} (hrole : e.roles[i]? = some role) (huid : agents[i]? = some uid) :
    Effect.resolve scope role = .ok ((NodeValue.number? (Text.trim uid.toList)).elim uid
      fun v => v.toRaw.display) ∧
    (Effect.resolve scope role = .ok uid ↔
      ∀ v, NodeValue.number? (Text.trim uid.toList) = some v → v.toRaw.display = uid) := by
  have hresolve : Effect.resolve scope role =
      .ok ((NodeValue.number? (Text.trim uid.toList)).elim uid fun v => v.toRaw.display) := by
    simp only [Effect.resolve, EffectContext.resolve?, hvar role (List.mem_of_getElem? hrole),
      if_true, hw.bindings_of_stages h hnodup hrole huid, Option.map_some,
      RawValue.display_returned_text]
  refine ⟨hresolve, ?_⟩
  rw [hresolve]
  cases NodeValue.number? (Text.trim uid.toList) <;> simp

/-- Who is there greets someone, who is brave from then on. -/
def greeting : SocialEvent :=
  ⟨"greet", ["?from", "?to"], "", [⟨["?from"], ["AddAgentTrait ?to brave"], ""⟩]⟩

/-- Ann and an agent whose name is a number, with a zero before it. -/
def greetingRun : List Command := [
  .addEvent greeting, .addAgentSchema ⟨"person", [], []⟩, .addAgent "person" "ann",
  .addAgent "person" "007"]

/-- The context in which Ann's greeting has its effect. -/
def greetingScope : EffectContext :=
  (Act.eventContext greeting ["ann", "007"]).withBindings
    (.ofList [("?from", .text "ann"), ("?to", .int 7)])

theorem stages_of_greeting :
    (greetingRun.foldl World.after ∅).Stages "greet" ["ann", "007"] greeting
      ⟨["?from"], ["AddAgentTrait ?to brave"], ""⟩ greetingScope where
  registered := rfl
  staged :=
    ⟨[], [], _, ⟨true, [.ofList [("?from", .text "ann"), ("?to", .int 7)]]⟩, rfl, rfl, rfl, rfl,
      List.mem_cons_self⟩

/-- Of a role that Ann takes: it stands for her. -/
theorem casting_of_ann :
    ∃ w e response scope, World.Reached w ∧ w.Stages "greet" ["ann", "007"] e response scope ∧
      e.roles.Nodup ∧ (∀ role ∈ e.roles, role.toList.head? = some '?') ∧
      e.roles[0]? = some "?from" ∧ Effect.resolve scope "?from" = .ok "ann" := by
  have hw : World.Reached (greetingRun.foldl World.after ∅) := (Reachable.empty.run _).reached
  have hnodup : greeting.roles.Nodup := by decide
  have hvar : ∀ role ∈ greeting.roles, role.toList.head? = some '?' := by decide
  have hrole : greeting.roles[0]? = some "?from" := rfl
  have huid : ["ann", "007"][0]? = some "ann" := rfl
  have hann := (hw.casting stages_of_greeting hnodup hvar hrole huid).2
  refine ⟨_, _, _, _, hw, stages_of_greeting, hnodup, hvar, hrole, hann.mpr fun v hv => ?_⟩
  have hnone : NodeValue.number? (Text.trim "ann".toList) = none := by decide
  rw [hnone] at hv
  cases hv

/-- The agent `007` takes a role, but the role stands for `7`, who is not there. -/
theorem role_stands_for_another :
    ¬ ∀ (w : World) (name : String) (agents : List String) (e : SocialEvent)
      (response : EventResponse) (scope : EffectContext), w.Reachable →
      w.Stages name agents e response scope → e.roles.Nodup →
      (∀ role ∈ e.roles, role.toList.head? = some '?') → agents.length = e.roles.length →
      (∀ uid ∈ agents, (w.agent? uid).isSome) →
      ∀ (i : Nat) (role uid : String), e.roles[i]? = some role → agents[i]? = some uid →
        Effect.resolve scope role = .ok uid := by
  intro h
  have hwrong := h (greetingRun.foldl World.after ∅) "greet" ["ann", "007"] greeting _ greetingScope
    (Reachable.empty.run _) stages_of_greeting (by decide) (by decide) rfl (by decide +kernel)
    1 "?to" "007" rfl rfl
  have hseven : Effect.resolve greetingScope "?to" = .ok "7" := rfl
  rw [hseven] at hwrong
  exact absurd (Except.ok.inj hwrong) (by decide)

end World

end Society
