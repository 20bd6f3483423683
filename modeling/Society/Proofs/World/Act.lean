import Society.World.Basic

/-!
# Reasoning about acts

What an act ensures: from worlds of one kind it leads to worlds of another one, with its answer, and
if it fails to worlds of a third kind, since what it has changed until then stays changed.
-/

namespace Society.Act

variable {α β : Type}

/-! ## Running acts -/

theorem runOn_bind (x : Act α) (f : α → Act β) (w : World) :
    (x >>= f).runOn w =
      match x.runOn w with
      | (.ok a, w') => (f a).runOn w'
      | (.error e, w') => (.error e, w') := by
  unfold runOn ExceptT.run StateT.run
  simp only [bind, ExceptT.bind, ExceptT.mk, StateT.bind, ExceptT.bindCont]
  cases x w with
  | mk r w' => cases r <;> rfl

theorem runOn_discard {x : Act α} {w w' : World} {a : α} (h : x.runOn w = (.ok a, w')) :
    Act.runOn (discard x) w = (.ok ⟨⟩, w') := by
  have hbind := runOn_bind x (fun _ => pure PUnit.unit) w
  rw [h] at hbind
  exact hbind

theorem runOn_eq_ok {x : Act α} {w : World} {a : α} (h : (x.runOn w).1.toOption = some a) :
    x.runOn w = (.ok a, (x.runOn w).2) := by
  cases hx : x.runOn w with
  | mk r w' =>
      rw [hx] at h
      cases r with
      | ok b => exact congrArg (fun b => (Except.ok b, w')) (Option.some.inj h)
      | error e => cases h

theorem runOn_adapt (f : WorldError → WorldError) (x : Act α) (w : World) :
    Act.runOn (ExceptT.adapt f x) w = ((x.runOn w).1.mapError f, (x.runOn w).2) := by
  unfold runOn
  rfl

/-! ## What acts ensure -/

/-- From a world in `P` the act leads to one in `Q`, or fails in one in `E`. -/
def Ensures (P : World → Prop) (x : Act α) (Q : α → World → Prop) (E : World → Prop) : Prop :=
  ∀ w, P w →
    match x.runOn w with
    | (.ok a, w') => Q a w'
    | (.error _, w') => E w'

section Rules

variable {P P' E : World → Prop} {Q Q' : α → World → Prop} {R : β → World → Prop} {x : Act α}

theorem ensures_pure {a : α} (h : ∀ w, P w → Q a w) : Ensures P (pure a) Q E := h

theorem ensures_throw {e : WorldError} (h : ∀ w, P w → E w) : Ensures P (throw e : Act α) Q E := h

theorem ensures_get {Q : World → World → Prop} (h : ∀ w, P w → Q w w) : Ensures P get Q E := h

theorem ensures_set {w' : World} {Q : PUnit → World → Prop} (h : ∀ w, P w → Q ⟨⟩ w') :
    Ensures P (set w') Q E := h

theorem ensures_modify {f : World → World} {Q : PUnit → World → Prop} (h : ∀ w, P w → Q ⟨⟩ (f w)) :
    Ensures P (modify f) Q E := h

theorem Ensures.bind {f : α → Act β} (hx : Ensures P x Q E) (hf : ∀ a, Ensures (Q a) (f a) R E) :
    Ensures P (x >>= f) R E := by
  intro w hw
  have hmid := hx w hw
  rw [runOn_bind]
  split at hmid
  · exact hf _ _ hmid
  · exact hmid

theorem Ensures.mono (h : Ensures P x Q E) (hP : ∀ w, P' w → P w) (hQ : ∀ a w, Q a w → Q' a w) :
    Ensures P' x Q' E := by
  intro w hw
  have hend := h w (hP w hw)
  split at hend
  · exact hQ _ _ hend
  · exact hend

/-- What does not depend on the world can be taken out of the worlds to begin with. -/
theorem ensures_of_pure {c : Prop} (h : c → Ensures P x Q E) :
    Ensures (fun w => P w ∧ c) x Q E :=
  fun w hw => h hw.2 w hw.1

theorem Ensures.discard {R : PUnit → World → Prop} (h : Ensures P x (fun _ => R ⟨⟩) E) :
    Ensures P (discard x) R E :=
  h.bind fun _ => ensures_pure fun _ hw => hw

theorem Ensures.adapt (h : Ensures P x Q E) (f : WorldError → WorldError) :
    Ensures P (ExceptT.adapt f x) Q E := by
  intro w hw
  have hend := h w hw
  rw [runOn_adapt]
  cases hx : x.runOn w with
  | mk r w' =>
      rw [hx] at hend
      cases r <;> exact hend

theorem Ensures.ite {c : Prop} [Decidable c] {y : Act α} (hx : c → Ensures P x Q E)
    (hy : ¬ c → Ensures P y Q E) : Ensures P (if c then x else y) Q E := by
  split
  · exact hx ‹_›
  · exact hy ‹_›

end Rules

theorem Ensures.weaken {P E E' : World → Prop} {Q : α → World → Prop} {x : Act α}
    (h : Ensures P x Q E) (hE : ∀ w, E w → E' w) : Ensures P x Q E' := by
  intro w hw
  have hend := h w hw
  split at hend
  · exact hend
  · exact hE _ hend

/-- A loop over a list, of which the invariant knows what is left. -/
theorem ensures_forM {I : List α → World → Prop} {E : World → Prop} {f : α → Act PUnit}
    (h : ∀ a l, Ensures (I (a :: l)) (f a) (fun _ => I l) E) (l : List α) :
    Ensures (I l) (l.forM f) (fun _ => I []) E := by
  induction l with
  | nil => exact ensures_pure fun _ hw => hw
  | cons a l ih => exact (h a l).bind fun _ => ih

/-- A loop over a list, of which each element keeps the invariant. -/
theorem ensures_forM_of_mem {P E : World → Prop} {f : α → Act PUnit} {l : List α}
    (h : ∀ a ∈ l, Ensures P (f a) (fun _ => P) E) : Ensures P (l.forM f) (fun _ => P) E := by
  induction l with
  | nil => exact ensures_pure fun _ hw => hw
  | cons a l ih =>
      exact (h a List.mem_cons_self).bind fun _ => ih fun b hb => h b (List.mem_cons_of_mem a hb)

/-- A loop over a list that comes once to one key, and leaves it alone before and after. -/
theorem ensures_forM_once {γ : Type} {P Q E : World → Prop} {f : α → Act PUnit} (key : α → γ) (k : γ)
    {l : List α} (hnodup : (l.map key).Nodup) (hmem : k ∈ l.map key)
    (hbefore : ∀ a, key a ≠ k → Ensures P (f a) (fun _ => P) E)
    (hafter : ∀ a, key a ≠ k → Ensures Q (f a) (fun _ => Q) E)
    (hone : ∀ a, key a = k → Ensures P (f a) (fun _ => Q) E) :
    Ensures P (l.forM f) (fun _ => Q) E := by
  induction l with
  | nil => cases hmem
  | cons a l ih =>
      rw [List.map_cons] at hnodup hmem
      obtain ⟨hnot, hl⟩ := List.nodup_cons.mp hnodup
      by_cases ha : key a = k
      · refine (hone a ha).bind fun _ => ensures_forM_of_mem fun b hb => hafter b fun hbk => ?_
        exact hnot (ha.trans hbk.symm ▸ List.mem_map_of_mem hb)
      · exact (hbefore a ha).bind fun _ =>
          ih hl ((List.mem_cons.mp hmem).resolve_left (Ne.symm ha))

theorem ensures_of_forall {P E : World → Prop} {x : Act α} {Q : α → World → Prop}
    (hQ : ∀ a w, Q a w) (hE : ∀ w, E w) : Ensures P x Q E := by
  intro w _
  split
  · exact hQ _ _
  · exact hE _

/-! ## From one world -/

/-- From this world the act leads to one in `Q`, or fails in one in `E`. -/
def Leads (x : Act α) (Q : α → World → Prop) (E : World → Prop) (w : World) : Prop :=
  match x.runOn w with
  | (.ok a, w') => Q a w'
  | (.error _, w') => E w'

section Leading

variable {E : World → Prop} {Q : α → World → Prop} {R : β → World → Prop} {x : Act α} {w : World}

@[simp] theorem leads_pure {a : α} : (pure a : Act α).Leads Q E w ↔ Q a w := Iff.rfl

@[simp] theorem leads_throw {e : WorldError} : (throw e : Act α).Leads Q E w ↔ E w := Iff.rfl

@[simp] theorem leads_get {Q : World → World → Prop} : (get : Act World).Leads Q E w ↔ Q w w :=
  Iff.rfl

@[simp] theorem leads_set {w' : World} {Q : PUnit → World → Prop} :
    (set w' : Act PUnit).Leads Q E w ↔ Q ⟨⟩ w' := Iff.rfl

@[simp] theorem leads_modify {f : World → World} {Q : PUnit → World → Prop} :
    (modify f : Act PUnit).Leads Q E w ↔ Q ⟨⟩ (f w) := Iff.rfl

@[simp] theorem leads_bind {f : α → Act β} :
    (x >>= f).Leads R E w ↔ x.Leads (fun a => (f a).Leads R E) E w := by
  unfold Leads
  rw [runOn_bind]
  cases x.runOn w with
  | mk r w' => cases r <;> rfl

theorem Leads.bind {f : α → Act β} (hx : x.Leads Q E w) (hf : ∀ a, Ensures (Q a) (f a) R E) :
    (x >>= f).Leads R E w := by
  have hstart : Ensures (fun w' => w' = w) x Q E := fun w' h => h ▸ hx
  exact hstart.bind hf w rfl

@[simp] theorem leads_discard {R : PUnit → World → Prop} :
    (discard x).Leads R E w ↔ x.Leads (fun _ => R ⟨⟩) E w :=
  leads_bind

theorem leads_ite {c : Prop} [Decidable c] {y : Act α} :
    (if c then x else y).Leads Q E w ↔ (c → x.Leads Q E w) ∧ (¬ c → y.Leads Q E w) := by
  split <;> simp [*]

theorem leads_ofFacts {answer : Except FactError α} :
    (ofFacts answer).Leads Q E w ↔
      (∀ a, answer = .ok a → Q a w) ∧ ∀ e, answer = .error e → E w := by
  cases answer <;> simp [ofFacts]

theorem leads_orElse {value? : Option α} {e : WorldError} :
    (orElse value? e).Leads Q E w ↔ (∀ a, value? = some a → Q a w) ∧ (value? = none → E w) := by
  cases value? <;> simp [orElse]

/-- Looking something up that may be missing. -/
theorem leads_look {find : World → Option α} {e : WorldError} :
    Leads (do orElse (find (← get)) e) Q E w ↔
      (∀ a, find w = some a → Q a w) ∧ (find w = none → E w) := by
  rw [leads_bind, leads_get, leads_orElse]

end Leading

theorem Leads.imp {E E' : World → Prop} {Q Q' : α → World → Prop} {x : Act α} {w : World}
    (h : x.Leads Q E w)
    (hQ : ∀ a w, Q a w → Q' a w) (hE : ∀ w, E w → E' w) : x.Leads Q' E' w := by
  unfold Leads at h ⊢
  cases hx : x.runOn w with
  | mk r w' =>
      rw [hx] at h
      cases r with
      | ok a => exact hQ _ _ h
      | error error => exact hE _ h

theorem Leads.ok {E : World → Prop} {Q : α → World → Prop} {x : Act α} {w w' : World} {a : α}
    (h : x.Leads Q E w) (hx : x.runOn w = (.ok a, w')) : Q a w' := by
  rw [Leads, hx] at h
  exact h

theorem Leads.error {E : World → Prop} {Q : α → World → Prop} {x : Act α} {w : World}
    (h : x.Leads Q E w) {error : WorldError} (he : (x.runOn w).1 = .error error) : E (x.runOn w).2 := by
  unfold Leads at h
  cases hx : x.runOn w with
  | mk r w' =>
      rw [hx] at h he
      obtain rfl := he
      exact h

theorem Leads.and {E E' : World → Prop} {Q Q' : α → World → Prop} {x : Act α} {w : World}
    (h : x.Leads Q E w) (h' : x.Leads Q' E' w) :
    x.Leads (fun a w' => Q a w' ∧ Q' a w') (fun w' => E w' ∧ E' w') w := by
  unfold Leads at h h' ⊢
  cases hx : x.runOn w with
  | mk r w' =>
      rw [hx] at h h'
      cases r <;> exact ⟨h, h'⟩

theorem leads_iff_runOn {E : World → Prop} {Q : α → World → Prop} {x : Act α} {w : World} :
    x.Leads Q E w ↔
      (∀ a w', x.runOn w = (.ok a, w') → Q a w') ∧
        ∀ error w', x.runOn w = (.error error, w') → E w' := by
  unfold Leads
  cases x.runOn w with
  | mk r w' => cases r <;> simp

/-- An act that cannot fail ends well. -/
theorem Leads.exists_ok {Q : α → World → Prop} {x : Act α} {w : World}
    (h : x.Leads Q (fun _ => False) w) : ∃ a w', x.runOn w = (.ok a, w') ∧ Q a w' := by
  unfold Leads at h
  cases hx : x.runOn w with
  | mk r w' =>
      rw [hx] at h
      cases r with
      | ok a => exact ⟨a, w', rfl, h⟩
      | error error => cases h

/-- What holds whether or not an act fails holds of the world after it. -/
theorem leads_iff_after {P : World → Prop} {x : Act α} {w : World} :
    x.Leads (fun _ => P) P w ↔ P (x.runOn w).2 := by
  unfold Leads
  cases x.runOn w with
  | mk r w' => cases r <;> rfl

/-- What an act ensures in two ways it ensures together. -/
theorem Ensures.and {P P' E E' : World → Prop} {Q Q' : α → World → Prop} {x : Act α}
    (h : Ensures P x Q E) (h' : Ensures P' x Q' E') :
    Ensures (fun w => P w ∧ P' w) x (fun a w => Q a w ∧ Q' a w) fun w => E w ∧ E' w :=
  fun w hw => Leads.and (h w hw.1) (h' w hw.2)

/-! ## What acts keep -/

/-- The act leads from worlds in `P` to worlds in `P` only, whether or not it fails. -/
def Keeps (P : World → Prop) (x : Act α) : Prop :=
  Ensures P x (fun _ => P) P

section Keeping

variable {P : World → Prop} {x : Act α}

theorem Keeps.holds (h : x.Keeps P) {w : World} (hw : P w) : P (x.runOn w).2 :=
  leads_iff_after.mp (h w hw)

theorem keeps_of_holds (h : ∀ w, P w → P (x.runOn w).2) : x.Keeps P :=
  fun w hw => leads_iff_after.mpr (h w hw)

theorem keeps_pure (a : α) : (pure a : Act α).Keeps P := ensures_pure fun _ hw => hw

theorem keeps_throw (e : WorldError) : (throw e : Act α).Keeps P := ensures_throw fun _ hw => hw

theorem keeps_get : (get : Act World).Keeps P := ensures_get fun _ hw => hw

theorem keeps_modify {f : World → World} (h : ∀ w, P w → P (f w)) :
    (modify f : Act PUnit).Keeps P :=
  ensures_modify h

theorem Keeps.bind {f : α → Act β} (hx : x.Keeps P) (hf : ∀ a, (f a).Keeps P) :
    (x >>= f).Keeps P :=
  Ensures.bind hx hf

theorem Keeps.forM {l : List α} {f : α → Act PUnit} (h : ∀ a, (f a).Keeps P) :
    (l.forM f).Keeps P := by
  induction l with
  | nil => exact keeps_pure _
  | cons a l ih => exact (h a).bind fun _ => ih

theorem Keeps.mapM {l : List α} {f : α → Act β} (h : ∀ a, (f a).Keeps P) : (l.mapM f).Keeps P := by
  induction l with
  | nil => exact keeps_pure _
  | cons a l ih =>
      rw [List.mapM_cons]
      exact (h a).bind fun _ => ih.bind fun _ => keeps_pure _

theorem keeps_ofFacts (answer : Except FactError α) : (ofFacts answer).Keeps P := by
  cases answer with
  | ok a => exact keeps_pure a
  | error e => exact keeps_throw _

theorem keeps_orElse (value? : Option α) (e : WorldError) : (orElse value? e).Keeps P := by
  cases value? with
  | some a => exact keeps_pure a
  | none => exact keeps_throw e

theorem keeps_look (look : World → Option α) (e : WorldError) :
    Keeps P (do orElse (look (← get)) e) :=
  keeps_get.bind fun _ => keeps_orElse _ e

end Keeping

/-! ## What acts leave as it is -/

/-- The act leaves what is seen of a world as it is, whether or not it fails. -/
def Fixes {γ : Type} (look : World → γ) (x : Act α) : Prop :=
  ∀ v, x.Keeps fun w => look w = v

section Fixing

variable {γ δ : Type} {look : World → γ} {x : Act α}

theorem Fixes.keeps {P : World → Prop} (h : x.Fixes look)
    (hP : ∀ w w', look w' = look w → P w → P w') : x.Keeps P := by
  intro w hw
  have hend := h (look w) w rfl
  split at hend
  · exact hP _ _ hend hw
  · exact hP _ _ hend hw

theorem Fixes.of_coarser {look' : World → δ} (h : x.Fixes look)
    (hlook : ∀ w w', look w' = look w → look' w' = look' w) : x.Fixes look' := by
  intro v
  refine h.keeps fun w w' heq hw => ?_
  rw [hlook w w' heq, hw]

theorem Fixes.eq (h : x.Fixes look) (w : World) :
    look (x.runOn w).2 = look w :=
  (h (look w)).holds rfl

theorem fixes_pure (a : α) : (pure a : Act α).Fixes look := fun _ => keeps_pure a

theorem fixes_get : (get : Act World).Fixes look := fun _ => keeps_get

theorem fixes_modify {f : World → World} (h : ∀ w, look (f w) = look w) :
    (modify f : Act PUnit).Fixes look :=
  fun _ => keeps_modify fun w hw => (h w).trans hw

theorem Fixes.bind {f : α → Act β} (hx : x.Fixes look) (hf : ∀ a, (f a).Fixes look) :
    (x >>= f).Fixes look :=
  fun v => (hx v).bind fun a => hf a v

theorem Fixes.discard (h : x.Fixes look) : (discard x).Fixes look :=
  h.bind fun _ => fixes_pure _

theorem Fixes.ite {c : Prop} [Decidable c] {y : Act α} (hx : x.Fixes look) (hy : y.Fixes look) :
    (if c then x else y).Fixes look :=
  fun v => Ensures.ite (fun _ => hx v) fun _ => hy v

theorem Fixes.forM {l : List α} {f : α → Act PUnit} (h : ∀ a, (f a).Fixes look) :
    (l.forM f).Fixes look :=
  fun v => Keeps.forM fun a => h a v

theorem Fixes.mapM {l : List α} {f : α → Act β} (h : ∀ a, (f a).Fixes look) :
    (l.mapM f).Fixes look :=
  fun v => Keeps.mapM fun a => h a v

theorem fixes_ofFacts (answer : Except FactError α) : (ofFacts answer).Fixes look :=
  fun _ => keeps_ofFacts answer

theorem fixes_orElse (value? : Option α) (e : WorldError) : (orElse value? e).Fixes look :=
  fun _ => keeps_orElse value? e

theorem fixes_look (find : World → Option α) (e : WorldError) :
    Fixes look (do orElse (find (← get)) e) :=
  fun _ => keeps_look find e

end Fixing

end Society.Act
