import Society.Proofs.World.Operation

/-!
# How long things last

What is given to an entity for a number of ticks is there until that many ticks have succeeded,
whatever else succeeds in between, unless something takes it or the entity. What is given for no
positive number of ticks stays for ever.
-/

namespace Society

/-! ## Timers that have run -/

namespace Timed

/-- What is left of it after a number of ticks, as long as it is left. -/
def after (x : Timed) (k : Nat) : Timed :=
  x.withTimer (x.timer.map (· - k))

@[simp] theorem timer_withTimer (x : Timed) (t : Timer) : (x.withTimer t).timer = t := by
  cases x <;> rfl

@[simp] theorem withTimer_withTimer (x : Timed) (t t' : Timer) :
    (x.withTimer t).withTimer t' = x.withTimer t' := by
  cases x <;> rfl

@[simp] theorem withTimer_timer (x : Timed) : x.withTimer x.timer = x := by
  cases x <;> rfl

theorem after_zero (x : Timed) : x.after 0 = x := by
  simp [after]

theorem after_of_forever {x : Timed} (h : x.timer = none) (k : Nat) : x.after k = x := by
  have hself := x.withTimer_timer
  rw [h] at hself
  simpa [after, h] using hself

theorem after_of_timer {x : Timed} {n : Nat} (h : x.timer = some n) (k : Nat) :
    x.after k = x.withTimer (some (n - k)) := by
  simp [after, h]

/-- As long as a tick is left after it, a tick takes one. -/
theorem next_after {x : Timed} {k : Nat} (h : ∀ n, x.timer = some n → k + 1 < n) :
    (x.after k).next = some (x.after (k + 1)) := by
  cases ht : x.timer with
  | none =>
      rw [after_of_forever ht, after_of_forever ht, next, tick, ht]
      have hself := x.withTimer_timer
      rw [ht] at hself
      simp [Timer.tick, Timer.expired, hself]
  | some n =>
      have hleft : n - (k + 1) ≠ 0 := by
        have hk := h n ht
        omega
      rw [after_of_timer ht, after_of_timer ht, next, tick]
      simp [Timer.tick, Timer.expired, hleft, Nat.sub_sub]

theorem next_withTimer_one (x : Timed) : (x.withTimer (some 1)).next = none := by
  simp [next_eq_none_iff, Timer.tick, Timer.expired]

end Timed

namespace Timer

theorem ofDuration_of_pos {d : Int} (h : 0 < d) : ofDuration d = some d.toNat := by
  simp [ofDuration, h]

theorem ofDuration_of_nonpos {d : Int} (h : d ≤ 0) : ofDuration d = none := by
  simp [ofDuration, Int.not_lt.mpr h]

end Timer

/-! ## Worlds that are reached -/

/-- The worlds that operations lead to, whether or not they fail, beginning with the empty one. -/
inductive World.Reached : World → Prop where
  | empty : Reached ∅
  | step {w : World} (o : Operation) : Reached w → Reached (o.act.runOn w).2

/-- What is steady, and kept by every command, is kept by every operation. -/
theorem Operation.act_keeps_of {P : World → Prop} (h : Act.Steady P P)
    (hcommand : ∀ c : Command, c.act.Keeps P) (o : Operation) : o.act.Keeps P := by
  cases o with
  | command c => exact hcommand c
  | effect f => exact Act.ensures_apply h f
  | edit e stat f =>
      refine h.of_fixes ((Act.fixes_look _ _).bind fun _ => (Act.fixes_orElse _ _).bind fun _ => ?_)
      exact (Act.changeStats_fixes e _).bind fun _ => Act.fixes_pure _

namespace World

variable {w w' : World} {e : Entity} {p : Place} {x : Timed}

theorem Reachable.reached (h : w.Reachable) : w.Reached := by
  induction h with
  | empty => exact .empty
  | step c _ ih => exact ih.step (.command c)

theorem Reached.of_ok (h : w.Reached) {o : Operation} (ho : o.act.runOn w = (.ok (), w')) :
    w'.Reached := by
  have hstep := h.step o
  rwa [ho] at hstep

theorem Reached.readable (h : w.Reached) : w.Readable := by
  induction h with
  | empty => exact readable_of_no_entities rfl rfl fun id t ht => by cases ht
  | step o _ ih => exact (o.act_keeps_of Act.steady_readable Command.act_readable).holds ih

/-- What is stable is upheld for ever, if it is no matter of types. -/
theorem Reached.upholds {F : FactDatabase → Prop} {T : Entity → HeldTraits → Option String → Prop}
    (h : w.Reached) (hF : FactDatabase.Stable F) (hempty : F ∅) (hT : HeldTraits.Stable T)
    (hany : ∀ e held kind kind', T e held kind → T e held kind') : w.Upholds F T := by
  have hcommand : ∀ c : Command, c.act.Keeps (Upholds F T) := by
    intro c
    apply c.act_upholds hF hT
    rintro owner target id rfl
    exact Act.Ensures.discard (Act.setRelationshipKind_upholds hF hT hany owner target id)
  induction h with
  | empty => exact upholds_of_no_entities rfl rfl hempty
  | step o _ ih => exact (o.act_keeps_of (Act.steady_upholds hF hT) hcommand).holds ih

theorem Reached.tidy (h : w.Reached) : w.Tidy := by
  rw [tidy_eq]
  apply h.upholds FactDatabase.stable_sound FactDatabase.sound_empty HeldTraits.stable_keyed
  exact fun _ _ _ _ hheld => hheld

/-- A tick that succeeds counts down what is anywhere. -/
theorem Reached.counted (h : w.Reached) (ht : Act.tick.runOn w = (.ok (), w')) (e : Entity)
    (p : Place) : w'.Counted e p (w.timed e p) := by
  have hcounts : Act.tick.Leads (fun _ => Counted e p (w.timed e p)) (fun _ => True) w :=
    Act.tick_counts e p _ w ⟨h.readable.linked, h.tidy, rfl⟩
  exact hcounts.ok ht

/-! ## What is given -/

/-- Something is given to an entity for a number of ticks: `x` is what comes to a place of it. -/
inductive Gives (w : World) : Entity → Place → Timed → Int → World → Prop where
  | trait {e : Entity} {id : String} {t : Trait} {duration : Int} {description : Option String}
      {w' : World} (ht : w.traits.get? id = some t)
      (h : (Act.addTrait e id duration description).runOn w = (.ok true, w')) :
      w.Gives e (.trait id)
        (.trait ⟨t, Act.describe e t description, .ofDuration duration⟩) duration w'
  | buff {e : Entity} {effect stat : String} {amount : Float} {duration : Int} {w' : World}
      (h : (Effect.buff effect e stat amount duration).apply.runOn w = (.ok (), w')) :
      w.Gives e (.stat stat)
        (.buff { ModifierSpec.instance ⟨stat, amount, .flat⟩ (.fresh w.nextId)
          (some (.effect effect)) with timer := .ofDuration duration }) duration w'
  | modifier {e : Entity} {stat : String} {m : StatModifier} {duration : Int} {w' : World}
      (hm : m.isBuff = true) (ht : m.timer = .ofDuration duration)
      (h : (Operation.edit e stat (·.add m)).act.runOn w = (.ok (), w')) :
      w.Gives e (.stat stat) (.buff m) duration w'
  | attached {uid : String} {given : Option String} {m : RelationshipModifier} {id : ModifierId}
      {duration : Int} {w' : World} (ht : m.timer = .ofDuration duration)
      (h : (Act.addRelationshipModifier uid given m).runOn w = (.ok id, w')) :
      w.Gives (.agent uid) .attached (.attached { m with id }) duration w'

end World

namespace Act

open World (Has)

variable {w : World} {e : Entity}

theorem addTrait_gives {id : String} {t : Trait} {duration : Int} {description : Option String}
    (ht : w.traits.get? id = some t) (hid : t.id = id) :
    (addTrait e id duration description).Leads
      (fun added w' => added = true →
        w'.Has e (.trait id) (.trait ⟨t, describe e t description, .ofDuration duration⟩))
      (fun _ => True) w := by
  refine leads_addTrait nofun fun t' s w' ht' hs _ hw' _ => ?_
  obtain rfl := Option.some.inj (ht.symm.trans ht')
  rw [Has, hw', World.timed_setSheet hs, if_pos rfl, Sheet.timed, HeldTraits.hold,
    Dict.get?_insert, if_pos hid.symm]
  exact List.mem_singleton_self _

/-- A modifier that an effect attaches comes to the stat. -/
theorem changeStats_gives {s : Sheet} (hs : w.sheet? e = some s) {f : Stats → Change Stats}
    {stat : String} {m : StatModifier} (hm : m ∈ (f s.stats).result.buffsOn stat) :
    (changeStats e f).Leads (fun _ => Has e (.stat stat) (.buff m)) (fun _ => True) w := by
  rw [changeStats, leads_bind, leads_requireSheet hs, leads_modify]
  refine World.Has.of_entities (w := w.setSheet { s with stats := (f s.stats).result } e) ?_ rfl rfl
  rw [Has, World.timed_setSheet hs, if_pos rfl]
  exact List.mem_map_of_mem hm

theorem buff_gives (effect : String) (e : Entity) (stat : String) (amount : Float) (duration : Int)
    (w : World) :
    (Effect.buff effect e stat amount duration).apply.Leads
      (fun _ => Has e (.stat stat) (.buff { ModifierSpec.instance ⟨stat, amount, .flat⟩
        (.fresh w.nextId) (some (.effect effect)) with timer := .ofDuration duration }))
      (fun _ => True) w := by
  refine leads_bind.mpr (leads_look.mpr ⟨fun s hs => ?_, fun _ => trivial⟩)
  refine leads_bind.mpr (leads_discard.mpr (leads_orElse.mpr ⟨fun found hfound => ?_, fun _ =>
    trivial⟩))
  refine leads_bind.mpr (leads_freshId.mpr ?_)
  have hs' : World.sheet? { w with nextId := w.nextId + 1 } e = some s := by
    cases e <;> exact hs
  have hc : s.stats.contains stat = true := by simp [Dict.contains, hfound]
  exact changeStats_gives hs' (Stats.mem_buffsOn_add hc rfl)

theorem edit_gives {stat : String} {m : StatModifier} (hm : m.isBuff = true) :
    (Operation.edit e stat (·.add m)).act.Leads (fun _ => Has e (.stat stat) (.buff m))
      (fun _ => True) w := by
  refine leads_bind.mpr (leads_look.mpr ⟨fun s hs => ?_, fun _ => trivial⟩)
  refine leads_bind.mpr (leads_orElse.mpr ⟨fun found hfound => ?_, fun _ => trivial⟩)
  have hc : s.stats.contains stat = true := by simp [Dict.contains, hfound]
  exact leads_bind.mpr (changeStats_gives hs (Stats.mem_buffsOn_add hc hm))

theorem addRelationshipModifier_gives (uid : String) (given : Option String)
    (m : RelationshipModifier) (w : World) :
    (addRelationshipModifier uid given m).Leads
      (fun id => Has (.agent uid) .attached (.attached { m with id })) (fun _ => True) w := by
  refine addRelationshipModifier_rule (P := fun _ => True) (fun _ _ => trivial)
    (fun _ _ _ => trivial) (fun w a id _ ha => ?_)
    (fun _ => ((reevaluateAgent_fixes_own uid (.agent uid)).timed .attached).has) w trivial
  rw [Has, World.timed_attached, World.attached, World.agent?_modifyAgent, if_pos rfl, ha]
  exact List.mem_map_of_mem (List.mem_append_right _ (List.mem_singleton_self _))

end Act

namespace World

variable {w w₁ last next : World} {e : Entity} {p : Place} {x : Timed} {d : Int} {k : Nat}

theorem Gives.timer_eq (h : w.Gives e p x d w₁) : x.timer = .ofDuration d := by
  cases h with
  | trait => rfl
  | buff => rfl
  | modifier _ ht => exact ht
  | attached ht => exact ht

theorem Gives.reached (h : w.Gives e p x d w₁) (hw : w.Reached) : w₁.Reached := by
  cases h with
  | trait _ h => exact hw.of_ok (o := .command (.giveTrait ..)) (Act.runOn_discard h)
  | buff h => exact hw.of_ok (o := .effect (.buff ..)) h
  | modifier _ _ h => exact hw.of_ok h
  | attached _ h => exact hw.of_ok (o := .command (.addRelationshipModifier ..)) (Act.runOn_discard h)

/-- What is given is there. -/
theorem Gives.has (h : w.Gives e p x d w₁) (hw : w.Reached) : w₁.Has e p x := by
  cases h with
  | trait ht h => exact (Act.addTrait_gives ht (hw.readable.library _ _ ht)).ok h rfl
  | buff h => exact (Act.buff_gives ..).ok h
  | modifier hm _ h => exact (Act.edit_gives hm).ok h
  | attached _ h => exact (Act.addRelationshipModifier_gives ..).ok h

/-! ## Runs -/

/-- Operations lead from `w` to a world, and all of them succeed. None takes `x`, of which each tick
has taken one, from its place; the number is that of the ticks. -/
inductive Spares (w : World) (e : Entity) (p : Place) (x : Timed) : Nat → World → Prop where
  | refl : w.Spares e p x 0 w
  | step {k : Nat} {v v' : World} (o : Operation) (h : w.Spares e p x k v)
      (hok : o.act.runOn v = (.ok (), v')) (hspares : ¬ o.Takes v e p (x.after k)) :
      w.Spares e p x (k + o.ticks) v'

/-- What is spared is there as long as a tick is left. -/
theorem Spares.has (h : w.Spares e p x k last) (hw : w.Reached) (hx : w.Has e p x)
    (hk : ∀ n, x.timer = some n → k < n) : last.Reached ∧ last.Has e p (x.after k) := by
  induction h with
  | refl => exact ⟨hw, (Timed.after_zero x).symm ▸ hx⟩
  | @step k v v' o _ hok hspares ih =>
      obtain ⟨hv, hhas⟩ := ih fun n hn => Nat.lt_of_le_of_lt (Nat.le_add_right k o.ticks) (hk n hn)
      refine ⟨hv.of_ok hok, ?_⟩
      rcases Nat.eq_zero_or_pos o.ticks with hzero | hpos
      · rw [hzero]
        exact (Operation.act_has hhas hspares hzero).ok hok
      · obtain rfl := Operation.eq_tick_of_ticks_pos hpos
        rw [Has, (hv.counted hok e p).timed_eq]
        exact List.mem_filterMap.mpr ⟨_, hhas, Timed.next_after hk⟩

/-- From one world to the next `x` is gone from its place, and nothing else that has a tick left. A
trait is gone with all its modifiers and its fact. -/
structure Loses (w : World) (e : Entity) (p : Place) (x : Timed) (next : World) : Prop where
  timed : ∃ before behind, w.timed e p = before ++ x :: behind ∧
    next.timed e p = (before ++ behind).filterMap Timed.next
  trait : ∀ id, p = .trait id → next.timed e p = [] ∧
    (∀ s, next.sheet? e = some s → s.stats.anyFrom (.trait id) = false) ∧
      next.facts.assert (e.traitFact id) = .ok false

/-- With its last tick it is gone. -/
theorem Reached.loses (hw : w.Reached) (hx : w.Has e p x) (hlast : x.next = none)
    (ht : Act.tick.runOn w = (.ok (), next)) : w.Loses e p x next := by
  obtain ⟨htimed, hreleased⟩ := hw.counted ht e p
  obtain ⟨before, behind, hsplit⟩ := List.append_of_mem hx
  have hleft : next.timed e p = (before ++ behind).filterMap Timed.next := by
    rw [htimed, hsplit]
    simp [hlast]
  refine ⟨⟨before, behind, hsplit, hleft⟩, ?_⟩
  rintro id rfl
  have hone := length_timed_trait w e id
  rw [hsplit, List.length_append, List.length_cons] at hone
  obtain rfl := List.eq_nil_of_length_eq_zero (show before.length = 0 by omega)
  obtain rfl := List.eq_nil_of_length_eq_zero (show behind.length = 0 by omega)
  have hgone := hreleased id rfl ⟨x, hx, hlast⟩
  exact ⟨hleft, hgone.shed, hgone.untold.assert_eq⟩

/-- What is given for a number of ticks lasts for exactly so many ticks that succeed, and what is
given for no positive number of ticks lasts for ever. -/
theorem Reached.lasts (hw : w.Reached) (hx : w.Gives e p x d w₁) (hrun : w₁.Spares e p x k last) :
    (d ≤ 0 → x.timer = none ∧ x ∈ last.timed e p) ∧
    (k < d → x.withTimer (some (d.toNat - k)) ∈ last.timed e p) ∧
    (k + 1 = d → ∀ next, Command.tick.act.runOn last = (.ok (), next) →
      last.Loses e p (x.withTimer (some 1)) next) := by
  have hthere := hrun.has (hx.reached hw) (hx.has hw)
  have htimer := hx.timer_eq
  have hpositive (hk : k < d) : last.Reached ∧ x.withTimer (some (d.toNat - k)) ∈ last.timed e p := by
    rw [Timer.ofDuration_of_pos (by omega)] at htimer
    rw [← Timed.after_of_timer htimer]
    refine hthere fun n hn => ?_
    obtain rfl := Option.some.inj (htimer.symm.trans hn)
    omega
  refine ⟨fun hd => ?_, fun hk => (hpositive hk).2, fun hk next hok => ?_⟩
  · rw [Timer.ofDuration_of_nonpos hd] at htimer
    refine ⟨htimer, ?_⟩
    have hhas := (hthere fun n hn => by cases htimer.symm.trans hn).2
    rwa [Timed.after_of_forever htimer] at hhas
  · obtain ⟨hreached, hhas⟩ := hpositive (by omega)
    rw [show d.toNat - k = 1 by omega] at hhas
    exact hreached.loses hhas x.next_withTimer_one hok

/-- There is a trait to hold, and Ann to hold it. -/
def sorrowRun : List Command := [
  .addTrait ⟨"sad", .agent, "Sad", "", [], ∅⟩, .addAgentSchema ⟨"person", [], []⟩,
  .addAgent "person" "ann"]

/-- Ann has become sad for two ticks. -/
def sorrow : World :=
  ((Act.addTrait (.agent "ann") "sad" 2 none).runOn (sorrowRun.foldl World.after ∅)).2

/-- Ann is sad for one more tick after the first one, though Bob comes along, and no longer after the
second one. -/
theorem lasts_of_sorrow :
    ∃ (w last next : World) (x : Timed), w.Reached ∧
      w.Gives (.agent "ann") (.trait "sad") x 2 sorrow ∧
      sorrow.Spares (.agent "ann") (.trait "sad") x 1 last ∧
      Command.tick.act.runOn last = (.ok (), next) ∧
      x.withTimer (some 1) ∈ last.timed (.agent "ann") (.trait "sad") ∧
      last.Loses (.agent "ann") (.trait "sad") (x.withTimer (some 1)) next := by
  have hw : World.Reached (sorrowRun.foldl World.after ∅) := (Reachable.empty.run _).reached
  obtain ⟨t, ht⟩ := Option.isSome_iff_exists.mp
    (show ((sorrowRun.foldl World.after ∅).traits.get? "sad").isSome = true by decide +kernel)
  obtain ⟨x, hgives⟩ : ∃ x, (sorrowRun.foldl World.after ∅).Gives (.agent "ann") (.trait "sad") x 2
      sorrow := ⟨_, .trait ht (Act.runOn_eq_ok (by decide +kernel))⟩
  have hcome : (Command.addAgent "person" "bob").act.runOn sorrow =
      (.ok (), sorrow.after (.addAgent "person" "bob")) := Act.runOn_eq_ok (by decide +kernel)
  have htick : Command.tick.act.runOn (sorrow.after (.addAgent "person" "bob")) =
      (.ok (), (sorrow.after (.addAgent "person" "bob")).after .tick) :=
    Act.runOn_eq_ok (by decide +kernel)
  have hlast : Command.tick.act.runOn ((sorrow.after (.addAgent "person" "bob")).after .tick) =
      (.ok (), ((sorrow.after (.addAgent "person" "bob")).after .tick).after .tick) :=
    Act.runOn_eq_ok (by decide +kernel)
  have hcomes : sorrow.Spares (.agent "ann") (.trait "sad") x 0 _ :=
    Spares.refl.step (.command (.addAgent "person" "bob")) hcome id
  have hrun : sorrow.Spares (.agent "ann") (.trait "sad") x 1 _ :=
    hcomes.step (.command .tick) htick id
  obtain ⟨-, hstays, hgoes⟩ := hw.lasts hgives hrun
  exact ⟨_, _, _, _, hw, hgives, hrun, hlast, hstays (by decide), hgoes rfl _ hlast⟩

end World

end Society
