import Society.Proofs.Query.Recall
import Society.Proofs.World.Ledger
import Society.Proofs.World.Lasting
import Society.Proofs.World.Shown

/-!
# Traits that come and go as a whole

A trait is on a sheet, in the stats and in the facts. Whatever could fail on the way to hold it or to
take it is found out before the first of the three is changed. What follows is an evaluation, and an
error then is an error of that evaluation.
-/

namespace Society

namespace FactDatabase

variable {db db' : FactDatabase} {s : String}

/-- What has been inserted is a fact. -/
theorem assert_of_insert (h : db.insert s = .ok db') : db'.assert s = .ok true := by
  obtain ⟨path, hp, hv⟩ := isFact_of_insert h
  have hfact : ∀ action, Sentence.parseFact action s = .ok path :=
    fun _ => Sentence.parseFact_eq_ok.mpr ⟨hp, hv⟩
  have hinsert := insert_eq db s
  rw [h, hfact] at hinsert
  cases hm : db.root.mismatch? path with
  | some symbol => simp [hm] at hinsert
  | none =>
      simp only [hm] at hinsert
      obtain rfl := Except.ok.inj hinsert
      rw [assert_eq, hfact]
      exact congrArg Except.ok (FactNode.holds_grow hm)

end FactDatabase

namespace Act

variable {e : Entity} {id : String}

theorem runOn_discard_snd {α : Type} (x : Act α) (w : World) :
    (Act.runOn (discard x) w).2 = (x.runOn w).2 := by
  have hbind : Act.runOn (discard x) w = _ := runOn_bind x (fun _ => pure PUnit.unit) w
  rw [hbind]
  cases x.runOn w with
  | mk r w' => cases r <;> rfl

/-- Takes a trait from an entity, but evaluates nothing. -/
def dropTrait (e : Entity) (id : String) : Act Bool := do
  let sheet ← requireSheet e
  if !sheet.traits.contains id then return false
  changeTraits e (·.erase id)
  changeStats e (·.removeFrom (.trait id))
  clearKind e id
  discard <| retract (e.traitFact id)
  return true

theorem removeTrait_eq (e : Entity) (id : String) :
    removeTrait e id = thenEvaluate e (dropTrait e id) := by
  simp only [removeTrait, dropTrait, thenEvaluate, bind_assoc]
  congr
  funext sheet
  split
  · rfl
  · simp

/-- The first part of an act has succeeded, and from there it ends as the evaluation around an entity
ends. -/
def EndsEvaluated (e : Entity) (start : Act Bool) (w : World) (r : Except WorldError Bool)
    (w' : World) : Prop :=
  ∃ u ended, start.runOn w = (.ok true, u) ∧ (reevaluateAround e).runOn u = (ended, w') ∧
    r = ended.map fun _ => true

theorem runOn_thenEvaluate {start : Act Bool} {w w' : World} {r : Except WorldError Bool}
    (h : (thenEvaluate e start).runOn w = (r, w')) :
    (start.runOn w = (r, w') ∧ r ≠ .ok true) ∨ EndsEvaluated e start w r w' := by
  rw [thenEvaluate, runOn_bind] at h
  cases hstart : start.runOn w with
  | mk answer u =>
      rw [hstart] at h
      cases answer with
      | error error =>
          obtain ⟨rfl, rfl⟩ := Prod.mk.inj h
          exact .inl ⟨rfl, by simp⟩
      | ok done =>
          cases done with
          | false =>
              obtain ⟨rfl, rfl⟩ := Prod.mk.inj h
              exact .inl ⟨rfl, by simp⟩
          | true =>
              right
              simp only [if_true, runOn_bind] at h
              cases hend : (reevaluateAround e).runOn u with
              | mk ended v =>
                  rw [hend] at h
                  refine ⟨u, ended, hstart, ?_⟩
                  cases ended with
                  | error error =>
                      obtain ⟨rfl, rfl⟩ := Prod.mk.inj h
                      exact ⟨hend, rfl⟩
                  | ok _ =>
                      obtain ⟨rfl, rfl⟩ := Prod.mk.inj h
                      exact ⟨hend, rfl⟩

variable {w : World} {E : World → Prop}

end Act

/-! ## What is there after an evaluation -/

namespace World

variable {w u w' : World} {e : Entity} {id : String} {ended : Except WorldError Unit}

/-- An evaluation leaves alone what an entity holds, and the facts. -/
theorem of_reevaluateAround (h : (Act.reevaluateAround e).runOn u = (ended, w')) :
    w'.face = u.face ∧
      ∀ id, ((w'.sheet? e).bind fun s => s.traits.get? id) =
        (u.sheet? e).bind fun s => s.traits.get? id := by
  have hw' : w' = ((Act.reevaluateAround e).runOn u).2 := by rw [h]
  have hface := (Act.reevaluateAround_fixes e).eq u
  have hown := (Act.reevaluateAround_fixes_own e e).eq u
  rw [← hw'] at hface hown
  refine ⟨hface, fun id => ?_⟩
  have htraits := congrArg (fun own => own.1.bind fun held => held.1.get? id) hown
  simpa [own, Option.bind_map, Function.comp_def] using htraits

/-- There is a trait with a modifier to hold, and Ann to hold it. -/
def braveRun : List Command := [
  .addTrait ⟨"brave", .agent, "Brave", "", [⟨"courage", 5, .flat⟩], ∅⟩,
  .addAgentSchema ⟨"soldier", [⟨"courage", 0, Stat.wideBounds⟩], []⟩, .addAgent "soldier" "ann"]

end World

end Society
