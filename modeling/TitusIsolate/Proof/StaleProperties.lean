import TitusIsolate.Lib.Run
import TitusIsolate.Config.RestartWatcher

/-!
# What a pass of the restart watcher vouches for

A pass that does not exit has compared one cache entry of each watched property, the one
without a default, with the property as it is. The entries under other defaults were
filled at other times. They are as good as the compared one exactly when the property
had, at the moment of each fill, the value the watcher found first; a value that changes,
is read for the first time under some default, and changes back between two passes leaves
an entry behind that no pass sees.
-/

namespace TitusIsolate

open Run

namespace ConfigManager

variable {V : Type} [DecidableEq V]

/-- Every cached value of these properties is what `get_str` answers now. -/
def NothingStale (cm : ConfigManager V) (ps : List String) : Prop :=
  ∀ p ∈ ps, ∀ default value, cm.cachedStr.get? (p, default) = some value →
    value = cm.getStr p default.value

/-- Each of these properties is cached without a default, and its other entries are what
that first answer gives under their defaults. -/
def Agrees (cm : ConfigManager V) (ps : List String) : Prop :=
  ∀ p ∈ ps, ∃ original, cm.cachedStr.get? (p, .omitted) = some original ∧
    ∀ default value, cm.cachedStr.get? (p, default) = some value →
      value = original.or default.value

omit [DecidableEq V] in
theorem getStr_eq (cm : ConfigManager V) (key : String) (default : Option V) :
    cm.getStr key default = (cm.properties key).or default := by
  unfold getStr
  cases cm.properties key with
  | none => rfl
  | some value => rfl

theorem getCachedStr_of_cached {cm : ConfigManager V} {key : String} {default : DefaultArg V}
    {value : Option V} (h : cm.cachedStr.get? (key, default) = some value) :
    cm.getCachedStr key default = (value, cm) := by
  unfold getCachedStr
  rw [h]

@[simp] theorem getCachedStr_properties (cm : ConfigManager V) (key : String)
    (default : DefaultArg V) : (cm.getCachedStr key default).2.properties = cm.properties := by
  unfold getCachedStr
  cases h : cm.cachedStr.get? (key, default) with
  | none => rfl
  | some value => rfl

theorem getStr_getCachedStr (cm : ConfigManager V) (key key' : String) (default : DefaultArg V)
    (default' : Option V) :
    (cm.getCachedStr key default).2.getStr key' default' = cm.getStr key' default' := by
  rw [getStr_eq, getStr_eq, getCachedStr_properties]

/-- **What a read leaves in the cache**: what was there, and its own answer when the call had
not been answered before. -/
theorem cached_getCachedStr {cm : ConfigManager V} {key p : String} {default d : DefaultArg V}
    {value : Option V}
    (h : (cm.getCachedStr key default).2.cachedStr.get? (p, d) = some value) :
    cm.cachedStr.get? (p, d) = some value
      ∨ (cm.cachedStr.get? (key, default) = none ∧ p = key ∧ d = default
          ∧ value = cm.getStr key default.value) := by
  cases hc : cm.cachedStr.get? (key, default) with
  | some v =>
    rw [getCachedStr_of_cached hc] at h
    exact Or.inl h
  | none =>
    unfold getCachedStr at h
    rw [hc] at h
    change (cm.cachedStr.insert _ _).get? _ = _ at h
    rw [OrderedDict.get?_insert] at h
    by_cases he : (p, d) = (key, default)
    · rw [if_pos he] at h
      obtain ⟨hp, hd⟩ := Prod.mk.inj he
      exact Or.inr ⟨rfl, hp, hd, (Option.some.inj h).symm⟩
    · rw [if_neg he] at h
      exact Or.inl h

/-- Nothing that is cached is forgotten or replaced. -/
theorem getCachedStr_mono {cm : ConfigManager V} {key p : String} {default d : DefaultArg V}
    {value : Option V} (h : cm.cachedStr.get? (p, d) = some value) :
    (cm.getCachedStr key default).2.cachedStr.get? (p, d) = some value := by
  cases hc : cm.cachedStr.get? (key, default) with
  | some v => rw [getCachedStr_of_cached hc]; exact h
  | none =>
    unfold getCachedStr
    rw [hc]
    show (cm.cachedStr.insert _ _).get? _ = _
    rw [OrderedDict.get?_insert, if_neg]
    · exact h
    · intro he
      rw [he, hc] at h
      exact absurd h (by simp)

/-- What has been read is cached. -/
theorem getCachedStr_cached (cm : ConfigManager V) (key : String) (default : DefaultArg V) :
    ∃ value, (cm.getCachedStr key default).2.cachedStr.get? (key, default) = some value := by
  cases hc : cm.cachedStr.get? (key, default) with
  | some v => exact ⟨v, by rw [getCachedStr_of_cached hc]; exact hc⟩
  | none =>
    refine ⟨cm.getStr key default.value, ?_⟩
    unfold getCachedStr
    rw [hc]
    show (cm.cachedStr.insert _ _).get? _ = _
    rw [OrderedDict.get?_insert, if_pos rfl]

theorem nothingStale_getCachedStr {cm : ConfigManager V} {ps : List String}
    (h : cm.NothingStale ps) (key : String) (default : DefaultArg V) :
    (cm.getCachedStr key default).2.NothingStale ps := by
  intro p hp d value hv
  rw [getStr_getCachedStr]
  rcases cached_getCachedStr hv with hv | ⟨_, rfl, rfl, rfl⟩
  · exact h p hp d value hv
  · rfl

theorem Agrees.cached {cm : ConfigManager V} {ps : List String} (h : cm.Agrees ps) :
    ∀ p ∈ ps, ∃ original, cm.cachedStr.get? (p, .omitted) = some original := by
  intro p hp
  obtain ⟨original, ho, _⟩ := h p hp
  exact ⟨original, ho⟩

/-- Nothing is stale in what agrees with first answers that are still true. -/
theorem nothingStale_of_agrees {cm : ConfigManager V} {ps : List String} (h : cm.Agrees ps)
    (hsame : ∀ p ∈ ps, cm.cachedStr.get? (p, .omitted) = some (cm.properties p)) :
    cm.NothingStale ps := by
  intro p hp default value hv
  obtain ⟨original, ho, hothers⟩ := h p hp
  rw [hsame p hp] at ho
  rw [hothers default value hv, getStr_eq, ← Option.some.inj ho]

end ConfigManager

namespace RestartPropertyWatcher

variable {V : Type} [DecidableEq V]

/-- A read that fills the cache of a watched property finds, under its default, what the
watcher's first answer gives under that default. -/
def FillAgrees (w : RestartPropertyWatcher V) : WatcherEvent V → Prop
  | .read p default =>
      p ∈ w.properties → w.configManager.cachedStr.get? (p, default) = none →
        ∀ original, w.configManager.cachedStr.get? (p, .omitted) = some original →
          w.configManager.getStr p default.value = original.or default.value
  | .change _ _ => True
  | .detect => True

/-- A pass that returns without having called the exit handler leaves no watched property
with a cached value that is not `get_str`'s. -/
def PassVouches (w : RestartPropertyWatcher V) : WatcherEvent V → Prop
  | .detect =>
      w.detectChanges.exitCodes = w.exitCodes →
        w.detectChanges.configManager.NothingStale w.properties
  | .change _ _ => True
  | .read _ _ => True

/-! ## A pass -/

/-- One comparison, of a property that is cached without a default. -/
theorem detectPropertyChange_eq {w : RestartPropertyWatcher V} {p : String} {original : Option V}
    (h : w.configManager.cachedStr.get? (p, .omitted) = some original) :
    w.detectPropertyChange p
      = if original ≠ w.configManager.properties p then
          { w with exitCodes := w.exitCodes ++ [genericPropertyChangeExit] }
        else w := by
  unfold detectPropertyChange
  rw [ConfigManager.getCachedStr_of_cached h]
  simp only [ConfigManager.getStr_eq, Option.or_none]

/-- A pass over properties that are cached only adds exit codes, and adds none exactly when
every first answer is still true. -/
theorem foldl_detectPropertyChange {ps : List String} {w : RestartPropertyWatcher V}
    (h : ∀ p ∈ ps, ∃ original, w.configManager.cachedStr.get? (p, .omitted) = some original) :
    ∃ codes, ps.foldl detectPropertyChange w = { w with exitCodes := w.exitCodes ++ codes }
      ∧ (codes = [] ↔ ∀ p ∈ ps,
          w.configManager.cachedStr.get? (p, .omitted) = some (w.configManager.properties p)) := by
  induction ps generalizing w with
  | nil => exact ⟨[], by simp, by simp⟩
  | cons p ps ih =>
    obtain ⟨original, ho⟩ := h p (by simp)
    rw [List.foldl_cons, detectPropertyChange_eq ho]
    by_cases hne : original ≠ w.configManager.properties p
    · -- this property has changed: the codes of the rest do not matter
      rw [if_pos hne]
      obtain ⟨codes, hfold, _⟩ := ih
        (w := { w with exitCodes := w.exitCodes ++ [genericPropertyChangeExit] })
        (fun q hq => h q (List.mem_cons_of_mem _ hq))
      refine ⟨genericPropertyChangeExit :: codes, by rw [hfold]; simp, ?_⟩
      refine ⟨fun hc => absurd hc (by simp), ?_⟩
      intro hall
      have hp := hall p (by simp)
      rw [ho] at hp
      exact absurd (Option.some.inj hp) hne
    · rw [if_neg hne]
      have heq : original = w.configManager.properties p := Classical.not_not.mp hne
      obtain ⟨codes, hfold, hnil⟩ := ih (fun q hq => h q (List.mem_cons_of_mem _ hq))
      refine ⟨codes, hfold, ?_⟩
      rw [hnil, List.forall_mem_cons, ho, heq]
      simp

/-- **What a pass does**, once every watched property is cached without a default. -/
theorem detectChanges_spec {w : RestartPropertyWatcher V}
    (h : ∀ p ∈ w.properties, ∃ original,
      w.configManager.cachedStr.get? (p, .omitted) = some original) :
    w.detectChanges.configManager = w.configManager
      ∧ w.detectChanges.properties = w.properties
      ∧ (w.detectChanges.exitCodes = w.exitCodes ↔ ∀ p ∈ w.properties,
          w.configManager.cachedStr.get? (p, .omitted) = some (w.configManager.properties p)) := by
  obtain ⟨codes, hfold, hnil⟩ := foldl_detectPropertyChange h
  unfold detectChanges
  rw [hfold]
  refine ⟨rfl, rfl, ?_⟩
  rw [← hnil]
  simp

/-! ## The invariant -/

/-- Construction: each watched property is read once, without a default. -/
theorem init_agrees {cm : ConfigManager V} {ps : List String} (h : cm.NothingStale ps) :
    (init cm ps).configManager.Agrees ps := by
  have hfold : ∀ (qs : List String) (cm : ConfigManager V), cm.NothingStale ps →
      (qs.foldl (fun cm p => (cm.getCachedStr p .omitted).2) cm).NothingStale ps
        ∧ ∀ p, p ∈ qs ∨ (∃ v, cm.cachedStr.get? (p, .omitted) = some v) →
          ∃ v, (qs.foldl (fun cm p => (cm.getCachedStr p .omitted).2) cm).cachedStr.get?
            (p, .omitted) = some v := by
    intro qs
    induction qs with
    | nil => exact fun cm hcm => ⟨hcm, fun p hp => hp.resolve_left (by simp)⟩
    | cons q qs ih =>
      intro cm hcm
      -- a read answers what the property is now, or what was cached and is not stale
      obtain ⟨hstale, hcached⟩ := ih _ (ConfigManager.nothingStale_getCachedStr hcm q .omitted)
      refine ⟨hstale, ?_⟩
      intro p hp
      refine hcached p ?_
      rcases hp with hp | ⟨v, hv⟩
      · rcases List.mem_cons.mp hp with rfl | hp
        · exact Or.inr (cm.getCachedStr_cached p .omitted)
        · exact Or.inl hp
      · exact Or.inr ⟨v, ConfigManager.getCachedStr_mono hv⟩
  obtain ⟨hstale, hcached⟩ := hfold ps cm h
  intro p hp
  obtain ⟨v, hv⟩ := hcached p (Or.inl hp)
  refine ⟨v, hv, ?_⟩
  intro default value hvalue
  have horiginal := hstale p hp .omitted v hv
  rw [ConfigManager.getStr_eq] at horiginal
  rw [hstale p hp default value hvalue, ConfigManager.getStr_eq, horiginal]
  simp [DefaultArg.value]

/-- A read that fills nothing, or what the first answer gives, keeps the agreement. -/
theorem agrees_getCachedStr {cm : ConfigManager V} {ps : List String} (h : cm.Agrees ps)
    {key : String} {default : DefaultArg V}
    (hfill : key ∈ ps → cm.cachedStr.get? (key, default) = none →
      ∀ original, cm.cachedStr.get? (key, .omitted) = some original →
        cm.getStr key default.value = original.or default.value) :
    (cm.getCachedStr key default).2.Agrees ps := by
  intro p hp
  obtain ⟨original, ho, hothers⟩ := h p hp
  refine ⟨original, ConfigManager.getCachedStr_mono ho, ?_⟩
  intro d value hv
  rcases ConfigManager.cached_getCachedStr hv with hv | ⟨hnone, rfl, rfl, rfl⟩
  · exact hothers d value hv
  · exact hfill hp hnone original ho

/-- The invariant: the watcher watches `ps`, and their entries agree. -/
def WatchesAgreeing (ps : List String) (w : RestartPropertyWatcher V) : Prop :=
  w.properties = ps ∧ w.configManager.Agrees ps

theorem watchesAgreeing_step {w : RestartPropertyWatcher V} {e : WatcherEvent V}
    {ps : List String} (h : WatchesAgreeing ps w) (he : w.FillAgrees e) :
    WatchesAgreeing ps (w.step e) := by
  obtain ⟨rfl, h⟩ := h
  cases e with
  | change key value => exact ⟨rfl, h⟩
  | read key default => exact ⟨rfl, agrees_getCachedStr h he⟩
  | detect =>
    obtain ⟨hcm, hps, _⟩ := detectChanges_spec h.cached
    refine ⟨hps, ?_⟩
    show w.detectChanges.configManager.Agrees _
    rw [hcm]
    exact h

/-- While all entries agree, a pass vouches for them. -/
theorem passVouches_of_agrees {ps : List String} {w : RestartPropertyWatcher V}
    (h : WatchesAgreeing ps w) (e : WatcherEvent V) : w.PassVouches e := by
  obtain ⟨rfl, h⟩ := h
  cases e with
  | change key value => trivial
  | read key default => trivial
  | detect =>
    obtain ⟨hcm, _, hexit⟩ := detectChanges_spec h.cached
    intro hsame
    rw [hcm]
    exact ConfigManager.nothingStale_of_agrees h (hexit.mp hsame)

/-- Along a run whose fills agree every pass vouches. -/
theorem eachStep_passVouches {ps : List String} {w : RestartPropertyWatcher V}
    {es : List (WatcherEvent V)} (h : WatchesAgreeing ps w) (hes : EachStep step FillAgrees w es) :
    EachStep step PassVouches w es :=
  eachStep_of_step (I := WatchesAgreeing ps) (fun _ _ => watchesAgreeing_step)
    (fun _ e hi _ => passVouches_of_agrees hi e) h hes

/-! ## Why nothing less will do -/

/-- The changes that give every watched property the value the watcher found first. -/
def restore (w : RestartPropertyWatcher V) : List (WatcherEvent V) :=
  w.properties.map (fun p =>
    .change p ((w.configManager.cachedStr.get? (p, .omitted)).getD none))

theorem exec_changes (f : String → Option V) (ps : List String) (w : RestartPropertyWatcher V) :
    exec step w (ps.map (fun p => .change p (f p)))
      = { w with
          configManager :=
            { w.configManager with
              properties := fun k => if k ∈ ps then f k else w.configManager.properties k } } := by
  induction ps generalizing w with
  | nil => simp
  | cons p ps ih =>
    rw [List.map_cons, exec_cons, ih]
    simp only [step, ConfigManager.setProperty, List.mem_cons]
    congr 2
    funext k
    by_cases hk : k ∈ ps
    · simp [hk]
    · by_cases hkp : k = p
      · simp [hkp]
      · simp [hk, hkp]

/-- Once the first answers are true again a pass does not exit, so it vouches only if the
entries agree. -/
theorem agrees_of_restored_pass {w : RestartPropertyWatcher V}
    (hcached : ∀ p ∈ w.properties, ∃ original,
      w.configManager.cachedStr.get? (p, .omitted) = some original)
    (h : EachStep step PassVouches w (w.restore ++ [.detect])) :
    w.configManager.Agrees w.properties := by
  have hpass := (eachStep_append.mp h).2.1
  unfold restore at hpass
  rw [exec_changes (fun p => (w.configManager.cachedStr.get? (p, .omitted)).getD none)] at hpass
  change _ → _ at hpass
  obtain ⟨hcm, _, hexit⟩ := detectChanges_spec (w := { w with
    configManager :=
      { w.configManager with
        properties := fun k => if k ∈ w.properties then
            (w.configManager.cachedStr.get? (k, .omitted)).getD none
          else w.configManager.properties k } }) hcached
  rw [hcm] at hpass
  -- every first answer is true again, so the pass does not exit
  have hnothing := hpass (hexit.mpr (by
    intro p hp
    obtain ⟨original, ho⟩ := hcached p hp
    simp only [hp, if_true, ho, Option.getD_some]))
  intro p hp
  obtain ⟨original, ho⟩ := hcached p hp
  refine ⟨original, ho, ?_⟩
  intro default value hv
  have hval := hnothing p hp default value hv
  rw [ConfigManager.getStr_eq] at hval
  simpa only [hp, if_true, ho, Option.getD_some] using hval

/-- An entry that agrees after the read that made it agreed when it was made. -/
theorem fillAgrees_of_agrees_after {ps : List String} {w : RestartPropertyWatcher V}
    (hw : w.properties = ps) {e : WatcherEvent V} (h : (w.step e).configManager.Agrees ps) :
    w.FillAgrees e := by
  subst hw
  cases e with
  | change key value => trivial
  | detect => trivial
  | read p default =>
    intro hp hnone original ho
    obtain ⟨original', ho', hothers⟩ := h p hp
    have hsame : original' = original := by
      -- the first answer is still the one the watcher compares
      have hmono : (w.configManager.getCachedStr p default).2.cachedStr.get? (p, .omitted)
          = some original := ConfigManager.getCachedStr_mono ho
      change (w.configManager.getCachedStr p default).2.cachedStr.get? _ = _ at ho'
      rw [hmono] at ho'
      exact (Option.some.inj ho').symm
    have hfilled : (w.configManager.getCachedStr p default).2.cachedStr.get? (p, default)
        = some (w.configManager.getStr p default.value) := by
      unfold ConfigManager.getCachedStr
      rw [hnone]
      show (w.configManager.cachedStr.insert _ _).get? _ = _
      rw [OrderedDict.get?_insert, if_pos rfl]
    rw [hothers default _ hfilled, hsame]

/-- The watcher watches `ps`, each of which is cached without a default. -/
def WatchesCached (ps : List String) (w : RestartPropertyWatcher V) : Prop :=
  w.properties = ps
    ∧ ∀ p ∈ ps, ∃ original, w.configManager.cachedStr.get? (p, .omitted) = some original

theorem WatchesAgreeing.watchesCached {ps : List String} {w : RestartPropertyWatcher V}
    (h : WatchesAgreeing ps w) : WatchesCached ps w :=
  ⟨h.1, h.2.cached⟩

/-- No step forgets or replaces a cached value. -/
theorem step_cached {ps : List String} {w : RestartPropertyWatcher V} (hw : WatchesCached ps w)
    {p : String} {d : DefaultArg V} {value : Option V}
    (h : w.configManager.cachedStr.get? (p, d) = some value) (e : WatcherEvent V) :
    (w.step e).configManager.cachedStr.get? (p, d) = some value := by
  obtain ⟨rfl, hw⟩ := hw
  cases e with
  | change key value => exact h
  | read key default => exact ConfigManager.getCachedStr_mono h
  | detect =>
    show w.detectChanges.configManager.cachedStr.get? _ = _
    rw [(detectChanges_spec hw).1]
    exact h

theorem watchesCached_step {ps : List String} {w : RestartPropertyWatcher V}
    (hw : WatchesCached ps w) (e : WatcherEvent V) : WatchesCached ps (w.step e) := by
  refine ⟨?_, ?_⟩
  · obtain ⟨rfl, hw⟩ := hw
    cases e with
    | change key value => rfl
    | read key default => rfl
    | detect => exact (detectChanges_spec hw).2.1
  · intro p hp
    obtain ⟨original, ho⟩ := hw.2 p hp
    exact ⟨original, step_cached hw ho e⟩

/-- Entries that agree at the end of a run agreed all along. -/
theorem agrees_of_agrees_exec {ps : List String} {w : RestartPropertyWatcher V}
    (hw : WatchesCached ps w) {es : List (WatcherEvent V)}
    (h : (exec step w es).configManager.Agrees ps) : w.configManager.Agrees ps := by
  have hkept : ∀ (p : String) (d : DefaultArg V) (value : Option V),
      w.configManager.cachedStr.get? (p, d) = some value →
        (exec step w es).configManager.cachedStr.get? (p, d) = some value := by
    intro p d value hv
    exact (exec_invariant
      (I := fun w => WatchesCached ps w
        ∧ w.configManager.cachedStr.get? (p, d) = some value)
      (fun _ e hi => ⟨watchesCached_step hi.1 e, step_cached hi.1 hi.2 e⟩) ⟨hw, hv⟩ es).2
  intro p hp
  obtain ⟨original, ho⟩ := hw.2 p hp
  obtain ⟨original', ho', hothers⟩ := h p hp
  have hsame : original' = original := by
    rw [hkept _ _ _ ho] at ho'
    exact (Option.some.inj ho').symm
  exact ⟨original, ho, fun d value hv => hsame ▸ hothers d value (hkept _ _ _ hv)⟩

/-- If the entries agree at the end of a run, every fill of the run agreed. -/
theorem eachStep_fillAgrees {ps : List String} {w : RestartPropertyWatcher V}
    (hw : WatchesCached ps w) {es : List (WatcherEvent V)}
    (h : (exec step w es).configManager.Agrees ps) : EachStep step FillAgrees w es := by
  induction es generalizing w with
  | nil => trivial
  | cons e es ih =>
    have hnext := watchesCached_step hw e
    exact ⟨fillAgrees_of_agrees_after hw.1 (agrees_of_agrees_exec hnext h), ih hnext h⟩

/-- The event is a change of a property or a pass. -/
def IsChangeOrPass : WatcherEvent V → Prop
  | .change _ _ => True
  | .detect => True
  | .read _ _ => False

/--
**When the watcher leaves nothing stale.** The watcher is constructed while nothing cached of
its properties is stale. Every pass of a run that does not exit leaves nothing stale, and
so does every pass of what changes and passes can still make of the run, if and only if
each read of the run that fills the cache of a watched property finds what the watcher's
first answer gives under the read's default.
-/
theorem passes_vouch_iff {cm : ConfigManager V} {ps : List String} (h : cm.NothingStale ps)
    (es : List (WatcherEvent V)) :
    (∀ later : List (WatcherEvent V), (∀ e ∈ later, IsChangeOrPass e) →
        EachStep step PassVouches (init cm ps) (es ++ later))
      ↔ EachStep step FillAgrees (init cm ps) es := by
  have hinit : WatchesAgreeing ps (init cm ps) := ⟨rfl, init_agrees h⟩
  refine ⟨?_, ?_⟩
  · intro hvouch
    -- put the first answers back and poll: that pass vouches for all the run has filled
    have hend : WatchesCached ps (exec step (init cm ps) es) :=
      exec_invariant (I := WatchesCached ps) (fun _ e hi => watchesCached_step hi e)
        hinit.watchesCached es
    have hpass := hvouch ((exec step (init cm ps) es).restore ++ [.detect]) (by
      intro e he
      rcases List.mem_append.mp he with he | he
      · obtain ⟨p, _, rfl⟩ := List.mem_map.mp he
        trivial
      · rw [List.mem_singleton.mp he]
        trivial)
    have hagrees := agrees_of_restored_pass (by rw [hend.1]; exact hend.2)
      (eachStep_append.mp hpass).2
    rw [hend.1] at hagrees
    exact eachStep_fillAgrees hinit.watchesCached hagrees
  · intro hfill later hlater
    refine eachStep_passVouches hinit (eachStep_append.mpr ⟨hfill, ?_⟩)
    refine eachStep_of_mem (fun w e he => ?_)
    have hkind := hlater e he
    cases e with
    | change key value => trivial
    | read key default => exact absurd hkind id
    | detect => trivial

/-! ## A value that changes and changes back -/

/-- A host whose usage provider is configured. -/
def promManager : ConfigManager String where
  properties := fun k => if k = "TITUS_ISOLATE_RESOURCE_USAGE_PROVIDER" then some "NOOP" else none
  cachedStr := OrderedDict.empty

/-- The provider is configured to something else, read for the first time under its default,
and configured back before the watcher polls. -/
def changedBack : List (WatcherEvent String) :=
  [ .change "TITUS_ISOLATE_RESOURCE_USAGE_PROVIDER" (some "prometheus"),
    .read "TITUS_ISOLATE_RESOURCE_USAGE_PROVIDER" (.positional (some "prometheus")),
    .change "TITUS_ISOLATE_RESOURCE_USAGE_PROVIDER" (some "NOOP"),
    .detect ]

theorem passes_vouch_iff_unread :
    (∀ later : List (WatcherEvent String), (∀ e ∈ later, IsChangeOrPass e) →
        EachStep step PassVouches
          (init promManager ["TITUS_ISOLATE_RESOURCE_USAGE_PROVIDER"]) ([.detect] ++ later))
      ↔ EachStep step FillAgrees
          (init promManager ["TITUS_ISOLATE_RESOURCE_USAGE_PROVIDER"]) [.detect] :=
  passes_vouch_iff (fun _ _ _ _ h => absurd h (by simp [promManager])) _

theorem changedBack_leaves_stale :
    ¬ EachStep step PassVouches
      (init promManager ["TITUS_ISOLATE_RESOURCE_USAGE_PROVIDER"]) changedBack := by
  intro h
  have hpass := h.2.2.2.1 (by decide)
  have hval := hpass "TITUS_ISOLATE_RESOURCE_USAGE_PROVIDER" (by decide)
    (.positional (some "prometheus")) (some "prometheus") (by decide)
  exact absurd hval (by decide)

end RestartPropertyWatcher

end TitusIsolate
