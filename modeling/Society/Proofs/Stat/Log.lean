import Society.Proofs.Stat.Order

/-!
# What has been done to a stat

The calls on a stat are told by a log that knows nothing of readings and of the order in which
modifiers apply: the base, the modifiers that are still attached, as they were added, and the
observers. At any time the stat is the one that the log describes, and a call announces the new value
to each observer exactly if it sets the base, adds a modifier or removes one.
-/

namespace Society

/-- What can be asked of a stat. -/
inductive StatCall where
  | setBase (base : Float)
  | increment (delta : Float)
  | add (m : StatModifier)
  | remove (id : ModifierId)
  | removeFrom (source : ModifierSource)
  | tick
  | read
  | observe (observer : String)

namespace Stat

/-- The stat after a call, and what the call announces. -/
def step (s : Stat) : StatCall → Change Stat
  | .setBase base => s.setBase base
  | .increment delta => s.increment delta
  | .add m => s.add m
  | .remove id => s.remove id
  | .removeFrom source => s.removeFrom source
  | .tick => s.tick
  | .read => s.unchanged
  | .observe observer => ⟨s.observe observer, []⟩

/-- The stat after calls in order. -/
def run (s : Stat) (calls : List StatCall) : Stat :=
  calls.foldl (fun s call => (s.step call).result) s

end Stat

/-- The base of a stat, the modifiers that are still attached, in the order in which they were added,
and the observers, in the order in which they came. -/
structure StatLog where
  base : Float
  attached : List StatModifier
  observers : List String

namespace StatLog

/-- The log of a new stat. -/
def start (base : Float) : StatLog :=
  ⟨base, [], []⟩

/-- The modifiers without the one of an id that applies first. -/
def detach (id : ModifierId) (l : List StatModifier) : List StatModifier :=
  match (Stat.inOrder l).find? (·.id == id) with
  | some m => l.erase m
  | none => l

/-- The log after a call. -/
def step (log : StatLog) : StatCall → StatLog
  | .setBase base => { log with base }
  | .increment delta => { log with base := log.base + delta }
  | .add m => { log with attached := log.attached ++ [m] }
  | .remove id => { log with attached := detach id log.attached }
  | .removeFrom source => { log with attached := log.attached.filter fun m => !m.isFrom source }
  | .tick => { log with
      attached := (log.attached.map StatModifier.tick).filter fun m => !m.timer.expired }
  | .read => log
  | .observe observer => { log with observers := log.observers ++ [observer] }

/-- The log after calls in order. -/
def run (log : StatLog) (calls : List StatCall) : StatLog :=
  calls.foldl step log

/-- Whether a call sets the base, adds a modifier or removes one. -/
def changedBy (log : StatLog) : StatCall → Bool
  | .setBase _ | .increment _ | .add _ => true
  | call => (log.step call).attached.length < log.attached.length

/-- The stat that the log describes, read anew. -/
def stat (log : StatLog) (bounds : Bounds Float) : Stat where
  base := log.base
  bounds := bounds
  modifiers := Stat.inOrder log.attached
  observers := log.observers
  reading := Quantity.reading bounds log.base
    ((Stat.inOrder log.attached).map fun m => (m.kind, m.amount))

variable (log : StatLog) (bounds : Bounds Float)

/-- The value of the stat that the log describes, for each observer. -/
def announcements : List Announcement :=
  log.observers.map fun observer => ⟨observer, (log.stat bounds).value⟩

/-- What is read anew with the modifiers of a log is the stat of the log. -/
theorem changed_eq (reading : Reading Float) :
    Stat.changed ⟨log.base, bounds, Stat.inOrder log.attached, log.observers, reading⟩ =
      ⟨log.stat bounds, log.announcements bounds⟩ := by
  simp only [Stat.changed, Stat.measure, announcements, stat, Stat.value]

/-- The stat with these modifiers left, announced if they are fewer. -/
def reduceTo (attached : List StatModifier) : Change Stat :=
  ⟨stat { log with attached } bounds,
    if decide (attached.length < log.attached.length) then
      announcements { log with attached } bounds
    else []⟩

theorem reduceTo_self : log.reduceTo bounds log.attached = ⟨log.stat bounds, []⟩ := by
  simp [reduceTo]

theorem reduceTo_eq_changed {attached : List StatModifier}
    (h : attached.length < log.attached.length) (reading : Reading Float) :
    log.reduceTo bounds attached =
      Stat.changed ⟨log.base, bounds, Stat.inOrder attached, log.observers, reading⟩ := by
  rw [reduceTo, if_pos (decide_eq_true h)]
  exact (changed_eq { log with attached } bounds reading).symm

/-! ## One call -/

theorem keepOnly_stat (keep : StatModifier → Bool) :
    (log.stat bounds).keepOnly keep = log.reduceTo bounds (log.attached.filter keep) := by
  have hall : (log.stat bounds).modifiers.all keep = log.attached.all keep :=
    (List.mergeSort_perm _ _).all_eq
  rw [Stat.keepOnly, hall]
  by_cases hkeep : log.attached.all keep = true
  · rw [if_pos hkeep, List.filter_eq_self.mpr (List.all_eq_true.mp hkeep), reduceTo_self]
    rfl
  · have hlt : (log.attached.filter keep).length < log.attached.length := by
      rw [List.length_filter_lt_length_iff_exists]
      simpa using hkeep
    rw [if_neg hkeep, log.reduceTo_eq_changed bounds hlt (log.stat bounds).reading,
      ← Stat.filter_inOrder]
    rfl

theorem remove_stat (id : ModifierId) :
    (log.stat bounds).remove id = log.reduceTo bounds (detach id log.attached) := by
  rw [Stat.remove, Stat.has, detach]
  cases hfind : (Stat.inOrder log.attached).find? (·.id == id) with
  | none =>
      have hany : (log.stat bounds).modifiers.any (·.id == id) = false :=
        List.any_eq_false.mpr (List.find?_eq_none.mp hfind)
      rw [if_neg (by simp [hany]), reduceTo_self]
      rfl
  | some m =>
      have hmem : m ∈ Stat.inOrder log.attached := List.mem_of_find?_eq_some hfind
      have hid : (m.id == id) = true := by simpa using List.find?_some hfind
      have hany : (log.stat bounds).modifiers.any (·.id == id) = true :=
        List.any_eq_true.mpr ⟨m, hmem, hid⟩
      have hlt : (log.attached.erase m).length < log.attached.length := by
        have hm : m ∈ log.attached := Stat.mem_inOrder.mp hmem
        have hpos := List.length_pos_of_mem hm
        rw [List.length_erase_of_mem hm]
        omega
      have herase : (log.stat bounds).modifiers.eraseP (·.id == id) =
          Stat.inOrder (log.attached.erase m) := by
        rw [← Stat.erase_inOrder]
        exact Stat.eraseP_eq_erase hfind
      rw [if_pos hany, herase]
      exact (log.reduceTo_eq_changed bounds hlt _).symm

/-- Counting down changes no reading. -/
theorem ticked_stat :
    { log.stat bounds with modifiers := (log.stat bounds).modifiers.map StatModifier.tick } =
      stat { log with attached := log.attached.map StatModifier.tick } bounds := by
  have hmodifiers : (Stat.inOrder log.attached).map StatModifier.tick =
      Stat.inOrder (log.attached.map StatModifier.tick) :=
    Stat.map_inOrder (f := StatModifier.tick) (fun _ => rfl) log.attached
  simp only [stat, ← hmodifiers, List.map_map]
  rfl

/-- A call does to the stat of a log what it does to the log, and announces the value exactly if it
changes something. -/
theorem step_stat (call : StatCall) :
    (log.stat bounds).step call =
      ⟨(log.step call).stat bounds,
        if log.changedBy call then (log.step call).announcements bounds else []⟩ := by
  cases call with
  | setBase base => exact changed_eq { log with base } bounds _
  | increment delta => exact changed_eq { log with base := log.base + delta } bounds _
  | add m =>
      have hadd : Stat.insertByOrder m (Stat.inOrder log.attached) =
          Stat.inOrder (log.attached ++ [m]) :=
        Stat.insertByOrder_inOrder m log.attached
      have hchanged := changed_eq { log with attached := log.attached ++ [m] } bounds
        (log.stat bounds).reading
      dsimp only at hchanged
      rw [← hadd] at hchanged
      exact hchanged
  | remove id => exact log.remove_stat bounds id
  | removeFrom source => exact log.keepOnly_stat bounds _
  | tick =>
      have hkeep := keepOnly_stat { log with attached := log.attached.map StatModifier.tick } bounds
        fun m => !m.timer.expired
      rw [← ticked_stat] at hkeep
      refine hkeep.trans ?_
      rw [reduceTo, List.length_map]
      rfl
  | read => simp [changedBy, step, Stat.step, Stat.unchanged]
  | observe observer => simp [changedBy, step, Stat.step, Stat.observe, stat]

/-- Calls that change something register no observer. -/
theorem observers_step {log : StatLog} {call : StatCall} (h : log.changedBy call = true) :
    (log.step call).observers = log.observers := by
  cases call with
  | observe observer => simp [changedBy, step] at h
  | _ => rfl

/-! ## Calls in order -/

theorem start_stat (base : Float) (bounds : Bounds Float) :
    (start base).stat bounds = Stat.create base bounds := by
  simp [stat, start, Stat.inOrder, Stat.create]

theorem run_stat (calls : List StatCall) :
    (log.stat bounds).run calls = (log.run calls).stat bounds := by
  induction calls generalizing log with
  | nil => rfl
  | cons call calls ih =>
      have hstep : ((log.stat bounds).step call).result = (log.step call).stat bounds := by
        rw [step_stat]
      rw [Stat.run, List.foldl_cons, hstep]
      exact ih (log.step call)

end StatLog

namespace Stat

theorem run_create (base : Float) (bounds : Bounds Float) (calls : List StatCall) :
    (create base bounds).run calls = ((StatLog.start base).run calls).stat bounds := by
  rw [← StatLog.start_stat, StatLog.run_stat]

/-- After any calls on a new stat its modifiers are those that are still attached, sorted by their
orders with equal ones as they were added, and its reading is the one that its base, its bounds and
these modifiers give. A further call announces the value that it leads to, once to each observer that
was registered by then, if it sets the base, adds a modifier or removes one, and nothing otherwise. -/
theorem run_follows_log (base : Float) (bounds : Bounds Float) (calls : List StatCall)
    (call : StatCall) :
    let log := (StatLog.start base).run calls
    let s := (create base bounds).run calls
    s.base = log.base ∧ s.bounds = bounds ∧
      s.modifiers = log.attached.mergeSort (fun m m' => m.order ≤ m'.order) ∧
      s.value = s.measure.value ∧ s.normalized = s.measure.normalized ∧
      (s.step call).announced =
        if log.changedBy call then
          log.observers.map fun observer => ⟨observer, (s.step call).result.measure.value⟩
        else [] := by
  intro log s
  have hs : s = log.stat bounds := run_create base bounds calls
  rw [hs, StatLog.step_stat]
  refine ⟨rfl, rfl, rfl, rfl, rfl, ?_⟩
  cases hcall : log.changedBy call with
  | false => rfl
  | true =>
      rw [if_pos rfl, if_pos rfl, ← StatLog.observers_step hcall]
      rfl

end Stat

end Society
