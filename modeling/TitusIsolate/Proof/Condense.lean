import Mathlib.Algebra.BigOperators.Group.List.Basic
import Mathlib.Algebra.Ring.Int.Defs
import TitusIsolate.Crd.UsagePrediction
import TitusIsolate.Lib.Raising

/-!
# When predictions add up

`add` asks the second operand for all that the first has, and for nothing else. So it
raises when the second lacks something, and loses what the second has beside it. A list
of predictions condenses to its sum, in any order, exactly when each of them covers all
the others.
-/

namespace TitusIsolate

open Raising

/-- A window of one quantile, which may not be there. -/
def windowOf {V : Type} (d : OrderedDict String (List V)) (quantile : String) (i : Nat) : Option V :=
  (d.get? quantile).bind (fun values => values[i]?)

theorem windowOf_eq_some {V : Type} {d : OrderedDict String (List V)} {quantile : String}
    {i : Nat} {y : V} : windowOf d quantile i = some y
      ↔ ∃ values, d.get? quantile = some values ∧ values[i]? = some y :=
  Option.bind_eq_some_iff

namespace ResourceUsagePrediction

variable {V : Type}

/-- The predicted value for a resource, a quantile and a window. -/
def value? (p : ResourceUsagePrediction V) (resType quantile : String) (i : Nat) : Option V :=
  (p.resourceTypePredictions.get? resType).bind
    (fun t => windowOf t.predictions quantile i)

/-- All that `p` has is in `q` as well. -/
structure CoveredBy (p q : ResourceUsagePrediction V) : Prop where
  resources : ∀ resType ∈ p.resourceTypePredictions.keys, resType ∈ q.resourceTypePredictions.keys
  values : ∀ resType quantile i, (p.value? resType quantile i).isSome →
    (q.value? resType quantile i).isSome

theorem CoveredBy.refl (p : ResourceUsagePrediction V) : p.CoveredBy p :=
  ⟨fun _ h => h, fun _ _ _ h => h⟩

theorem CoveredBy.trans {p q r : ResourceUsagePrediction V} (h : p.CoveredBy q)
    (h' : q.CoveredBy r) : p.CoveredBy r :=
  ⟨fun t ht => h'.resources t (h.resources t ht), fun t u i hv => h'.values t u i (h.values t u i hv)⟩

end ResourceUsagePrediction

open ResourceUsagePrediction

section

variable {V : Type} [Add V]

/-! ## One addition -/

/-- The loop over the windows yields the sums of the windows. -/
theorem addWindows_ok {other : OrderedDict String (List V)} {quantile : String} :
    ∀ {xs ys : List V} {i : Nat}, addWindows other quantile i xs = .ok ys →
      ys.length = xs.length
        ∧ ∀ {j x}, xs[j]? = some x → ∃ y, windowOf other quantile (i + j) = some y
            ∧ ys[j]? = some (x + y)
  | [], ys, i, h => by
      cases h
      exact ⟨rfl, fun hx => by cases hx⟩
  | x :: xs, ys, i, h => by
      obtain ⟨values, hvalues, h⟩ := bind_eq_ok.mp h
      obtain ⟨y, hy, h⟩ := bind_eq_ok.mp h
      obtain ⟨rest, hrest, h⟩ := bind_eq_ok.mp h
      obtain rfl : (x + y) :: rest = ys := Except.ok.inj h
      obtain ⟨hlength, hwindows⟩ := addWindows_ok hrest
      refine ⟨by rw [List.length_cons, List.length_cons, hlength], ?_⟩
      intro j z hz
      cases j with
      | zero =>
        obtain rfl := Option.some.inj hz
        exact ⟨y, windowOf_eq_some.mpr ⟨values, getKey_eq_ok.mp hvalues, getItem_eq_ok.mp hy⟩, rfl⟩
      | succ j =>
        obtain ⟨y', hy', hsum⟩ := hwindows hz
        exact ⟨y', by rw [← hy']; congr 1; omega, hsum⟩

theorem addWindows_ok_of_forall {other : OrderedDict String (List V)} {quantile : String} :
    ∀ (xs : List V) (i : Nat),
      (∀ j < xs.length, ∃ y, windowOf other quantile (i + j) = some y) →
      ∃ ys, addWindows other quantile i xs = .ok ys
  | [], _, _ => ⟨[], rfl⟩
  | x :: xs, i, h => by
      obtain ⟨y, hy⟩ := h 0 (Nat.succ_pos _)
      obtain ⟨values, hvalues, hy⟩ := windowOf_eq_some.mp hy
      obtain ⟨rest, hrest⟩ := addWindows_ok_of_forall xs (i + 1) (by
        intro j hj
        obtain ⟨y', hy'⟩ := h (j + 1) (Nat.succ_lt_succ hj)
        exact ⟨y', by rw [← hy']; congr 1; omega⟩)
      exact ⟨(x + y) :: rest, bind_eq_ok.mpr ⟨values, getKey_eq_ok.mpr hvalues,
        bind_eq_ok.mpr ⟨y, getItem_eq_ok.mpr hy, bind_eq_ok.mpr ⟨rest, hrest, rfl⟩⟩⟩⟩

/-- What the addition of one resource yields. -/
theorem addType_ok {t u out : ResourceTypeUsagePrediction V} (h : t.add (some u) = .ok out) :
    (∀ quantile i x, windowOf t.predictions quantile i = some x →
        ∃ y, windowOf u.predictions quantile i = some y
          ∧ windowOf out.predictions quantile i = some (x + y))
      ∧ ∀ quantile i, windowOf t.predictions quantile i = none →
          windowOf out.predictions quantile i = none := by
  obtain ⟨predictions, hupdate, h⟩ := bind_eq_ok.mp h
  obtain rfl : { t with predictions := predictions } = out := Except.ok.inj h
  obtain ⟨hkeys, hvalues⟩ := OrderedDict.updateM_ok hupdate
  refine ⟨?_, ?_⟩
  · intro quantile i x hx
    obtain ⟨xs, hxs, hx⟩ := windowOf_eq_some.mp hx
    obtain ⟨ys, hys, hget⟩ := hvalues hxs
    obtain ⟨y, hy, hsum⟩ := (addWindows_ok hys).2 hx
    rw [Nat.zero_add] at hy
    exact ⟨y, hy, windowOf_eq_some.mpr ⟨ys, hget, hsum⟩⟩
  · intro quantile i hnone
    cases hxs : t.predictions.get? quantile with
    | none =>
      unfold windowOf
      rw [(OrderedDict.get?_eq_none_congr hkeys).mpr hxs]
      rfl
    | some xs =>
      obtain ⟨ys, hys, hget⟩ := hvalues hxs
      unfold windowOf at hnone ⊢
      rw [hxs] at hnone
      rw [hget]
      show ys[i]? = none
      rw [List.getElem?_eq_none_iff, (addWindows_ok hys).1]
      exact List.getElem?_eq_none_iff.mp hnone

theorem addType_ok_of_forall {t u : ResourceTypeUsagePrediction V}
    (h : ∀ quantile i, (windowOf t.predictions quantile i).isSome →
      (windowOf u.predictions quantile i).isSome) : ∃ out, t.add (some u) = .ok out := by
  obtain ⟨predictions, hupdate⟩ := OrderedDict.updateM_ok_of_forall (d := t.predictions)
    (f := fun percentile predictions => addWindows u.predictions percentile 0 predictions) (by
      intro quantile xs hxs
      refine addWindows_ok_of_forall xs 0 ?_
      intro j hj
      rw [Nat.zero_add]
      refine Option.isSome_iff_exists.mp (h quantile j ?_)
      exact Option.isSome_iff_exists.mpr
        ⟨_, windowOf_eq_some.mpr ⟨xs, hxs, List.getElem?_eq_getElem hj⟩⟩)
  exact ⟨_, bind_eq_ok.mpr ⟨predictions, hupdate, rfl⟩⟩

omit [Add V] in
theorem value?_eq_windowOf {p : ResourceUsagePrediction V} {resType : String}
    {t : ResourceTypeUsagePrediction V} (h : p.resourceTypePredictions.get? resType = some t)
    (quantile : String) (i : Nat) :
    p.value? resType quantile i = windowOf t.predictions quantile i := by
  unfold value?
  rw [h]
  rfl

/-- What the addition of two predictions yields: the first's values, each with the second's. -/
theorem add_ok {p q out : ResourceUsagePrediction V} (h : p.add (some q) = .ok out) :
    out.resourceTypePredictions.keys = p.resourceTypePredictions.keys
      ∧ (∀ resType ∈ p.resourceTypePredictions.keys, resType ∈ q.resourceTypePredictions.keys)
      ∧ (∀ resType quantile i x, p.value? resType quantile i = some x →
          ∃ y, q.value? resType quantile i = some y
            ∧ out.value? resType quantile i = some (x + y))
      ∧ ∀ resType quantile i, p.value? resType quantile i = none →
          out.value? resType quantile i = none := by
  obtain ⟨resources, hupdate, h⟩ := bind_eq_ok.mp h
  obtain rfl : ResourceUsagePrediction.mk resources = out := Except.ok.inj h
  obtain ⟨hkeys, hvalues⟩ := OrderedDict.updateM_ok hupdate
  -- each resource of the first is one of the second, and was added to it
  have htype : ∀ {resType t}, p.resourceTypePredictions.get? resType = some t →
      ∃ u v, q.resourceTypePredictions.get? resType = some u ∧ t.add (some u) = .ok v
        ∧ resources.get? resType = some v := by
    intro resType t ht
    obtain ⟨v, hv, hget⟩ := hvalues ht
    obtain ⟨u, hu, hadd⟩ := bind_eq_ok.mp hv
    exact ⟨u, v, getKey_eq_ok.mp hu, hadd, hget⟩
  refine ⟨hkeys, ?_, ?_, ?_⟩
  · intro resType hmem
    obtain ⟨t, ht⟩ := OrderedDict.mem_keys_iff.mp hmem
    obtain ⟨u, _, hu, _, _⟩ := htype ht
    exact OrderedDict.mem_keys_iff.mpr ⟨u, hu⟩
  · intro resType quantile i x hx
    obtain ⟨t, ht, hx⟩ := Option.bind_eq_some_iff.mp hx
    obtain ⟨u, v, hu, hadd, hv⟩ := htype ht
    obtain ⟨y, hy, hsum⟩ := (addType_ok hadd).1 quantile i x hx
    exact ⟨y, (value?_eq_windowOf hu quantile i).trans hy,
      (value?_eq_windowOf (p := ⟨resources⟩) hv quantile i).trans hsum⟩
  · intro resType quantile i hnone
    cases ht : p.resourceTypePredictions.get? resType with
    | none =>
      unfold value?
      rw [(OrderedDict.get?_eq_none_congr hkeys).mpr ht]
      rfl
    | some t =>
      obtain ⟨u, v, hu, hadd, hv⟩ := htype ht
      rw [value?_eq_windowOf ht] at hnone
      rw [value?_eq_windowOf (p := ⟨resources⟩) hv]
      exact (addType_ok hadd).2 quantile i hnone

/-- **Two predictions can be added when the second covers the first.** -/
theorem add_ok_iff {p q : ResourceUsagePrediction V} :
    (∃ out, p.add (some q) = .ok out) ↔ p.CoveredBy q := by
  refine ⟨?_, ?_⟩
  · rintro ⟨out, h⟩
    obtain ⟨_, hresources, hsums, _⟩ := add_ok h
    refine ⟨hresources, ?_⟩
    intro resType quantile i hsome
    obtain ⟨x, hx⟩ := Option.isSome_iff_exists.mp hsome
    obtain ⟨y, hy, _⟩ := hsums resType quantile i x hx
    exact Option.isSome_iff_exists.mpr ⟨y, hy⟩
  · intro hcovered
    obtain ⟨resources, hupdate⟩ := OrderedDict.updateM_ok_of_forall
      (d := p.resourceTypePredictions)
      (f := fun resType predictions => do
        let otherType ← getKey q.resourceTypePredictions resType
        predictions.add (some otherType)) (by
      intro resType t ht
      obtain ⟨u, hu⟩ := OrderedDict.mem_keys_iff.mp
        (hcovered.resources resType (OrderedDict.mem_keys_iff.mpr ⟨t, ht⟩))
      obtain ⟨out, hout⟩ := addType_ok_of_forall (t := t) (u := u) (by
        intro quantile i hsome
        rw [← value?_eq_windowOf ht] at hsome
        rw [← value?_eq_windowOf hu]
        exact hcovered.values resType quantile i hsome)
      exact ⟨out, bind_eq_ok.mpr ⟨u, getKey_eq_ok.mpr hu, hout⟩⟩)
    exact ⟨_, bind_eq_ok.mpr ⟨resources, hupdate, rfl⟩⟩

/-- A sum has what its first operand has. -/
theorem coveredBy_of_add {p q sum : ResourceUsagePrediction V} (h : p.add (some q) = .ok sum) :
    sum.CoveredBy p ∧ p.CoveredBy sum := by
  obtain ⟨hkeys, _, hsome, hnone⟩ := add_ok h
  have hisSome : ∀ resType quantile i, (sum.value? resType quantile i).isSome
      = (p.value? resType quantile i).isSome := by
    intro resType quantile i
    cases hp : p.value? resType quantile i with
    | none => rw [hnone _ _ _ hp]
    | some x =>
      obtain ⟨y, _, hxy⟩ := hsome _ _ _ x hp
      rw [hxy]
      rfl
  refine ⟨⟨?_, ?_⟩, ?_, ?_⟩
  · exact fun t ht => hkeys ▸ ht
  · exact fun t u i hv => hisSome t u i ▸ hv
  · exact fun t ht => hkeys.symm ▸ ht
  · exact fun t u i hv => (hisSome t u i).symm ▸ hv

/-! ## All additions -/

/-- What condensing yields, apart from where the objects are. -/
def addEach (p : ResourceUsagePrediction V) (qs : List (ResourceUsagePrediction V)) :
    Except PyError (ResourceUsagePrediction V) := qs.foldlM (fun p q => p.add (some q)) p

/-- References to the given objects. -/
def RefersTo (store : PredictionStore V) (refs : List Nat)
    (ps : List (ResourceUsagePrediction V)) : Prop :=
  List.Forall₂ (fun r p => store[r]? = some p) refs ps

omit [Add V] in
theorem RefersTo.append {store new : PredictionStore V} {refs : List Nat}
    {ps : List (ResourceUsagePrediction V)} (h : RefersTo store refs ps) :
    RefersTo (store ++ new) refs ps := by
  refine h.imp ?_
  intro r p hr
  rw [List.getElem?_append_left (List.getElem?_eq_some_iff.mp hr).1]
  exact hr

/-- The loop only makes new objects, and its result is the last of them or the first operand. -/
theorem addAll_spec (refs : List Nat) : ∀ (store : PredictionStore V) (out : Nat)
    (p : ResourceUsagePrediction V) (qs : List (ResourceUsagePrediction V)),
    store[out]? = some p → RefersTo store refs qs →
    ∃ new result, store.addAll out refs = (result, store ++ new)
      ∧ (∀ r, result = .ok r → ∃ sum, addEach p qs = .ok sum ∧ (store ++ new)[r]? = some sum)
      ∧ ∀ sum, addEach p qs = .ok sum → ∃ r, result = .ok r := by
  induction refs with
  | nil =>
    intro store out p qs hout hrefs
    cases hrefs
    refine ⟨[], .ok out, by rw [List.append_nil]; rfl, ?_, fun _ _ => ⟨out, rfl⟩⟩
    intro r hr
    obtain rfl := Except.ok.inj hr
    exact ⟨p, rfl, by rw [List.append_nil]; exact hout⟩
  | cons other refs ih =>
    intro store out p qs hout hrefs
    obtain _ | @⟨_, q, _, qs, hother, hrefs⟩ := hrefs
    cases hadd : p.add (some q) with
    | error e =>
      have hstep : store.add out other = (.error e, store) := by
        simp only [PredictionStore.add, getItem_eq_ok.mpr hout, hother, hadd]
      have hfails : addEach p (q :: qs) = .error e := by
        unfold addEach
        rw [List.foldlM_cons, hadd]
        rfl
      refine ⟨[], .error e, ?_, (fun r hr => by cases hr), ?_⟩
      · rw [PredictionStore.addAll, hstep, List.append_nil]
      · intro sum hsum
        rw [hfails] at hsum
        cases hsum
    | ok sum =>
      have hstep : store.add out other = (.ok store.length, store ++ [sum]) := by
        simp only [PredictionStore.add, getItem_eq_ok.mpr hout, hother, hadd]
      have hgoes : addEach p (q :: qs) = addEach sum qs := by
        unfold addEach
        rw [List.foldlM_cons, hadd]
        rfl
      obtain ⟨new, result, hrun, hresult⟩ := ih (store ++ [sum]) store.length sum qs
        (by simp) (RefersTo.append hrefs)
      refine ⟨sum :: new, result, ?_, ?_⟩
      · rw [PredictionStore.addAll, hstep]
        show (store ++ [sum]).addAll store.length refs = _
        rw [hrun, List.append_assoc, List.singleton_append]
      · rw [hgoes]
        rw [List.append_assoc, List.singleton_append] at hresult
        exact hresult

end

section

variable {V : Type} [AddCommMonoid V]

/-- The sum of the values that are there, when there is one. -/
def sumOver (ps : List (ResourceUsagePrediction V)) (resType quantile : String) (i : Nat) :
    Option V :=
  match ps.filterMap (fun p => p.value? resType quantile i) with
  | [] => none
  | x :: xs => some (x :: xs).sum

theorem sumOver_perm {ps qs : List (ResourceUsagePrediction V)} (h : ps.Perm qs)
    (resType quantile : String) (i : Nat) :
    sumOver ps resType quantile i = sumOver qs resType quantile i := by
  have hvalues := h.filterMap (fun p => p.value? resType quantile i)
  unfold sumOver
  cases hps : ps.filterMap (fun p => p.value? resType quantile i) with
  | nil =>
    rw [hps] at hvalues
    rw [hvalues.symm.eq_nil]
  | cons x xs =>
    cases hqs : qs.filterMap (fun p => p.value? resType quantile i) with
    | nil =>
      rw [hqs] at hvalues
      rw [hvalues.eq_nil] at hps
      cases hps
    | cons y ys =>
      rw [hps, hqs] at hvalues
      exact congrArg some hvalues.sum_eq

/-- Each prediction covers every other. -/
def AllAlike (ps : List (ResourceUsagePrediction V)) : Prop :=
  ∀ p ∈ ps, ∀ q ∈ ps, p.CoveredBy q

theorem sumOver_singleton (p : ResourceUsagePrediction V) (resType quantile : String) (i : Nat) :
    sumOver [p] resType quantile i = p.value? resType quantile i := by
  unfold sumOver
  cases h : p.value? resType quantile i with
  | none => simp [h]
  | some x => simp [h]

/-- A sum of the first two, which cover each other, stands for both. -/
theorem sumOver_add {p q sum : ResourceUsagePrediction V} (h : p.add (some q) = .ok sum)
    (hqp : q.CoveredBy p) (qs : List (ResourceUsagePrediction V)) (resType quantile : String)
    (i : Nat) :
    sumOver (sum :: qs) resType quantile i = sumOver (p :: q :: qs) resType quantile i := by
  obtain ⟨_, _, hsome, hnone⟩ := add_ok h
  unfold sumOver
  cases hp : p.value? resType quantile i with
  | none =>
    have hq : q.value? resType quantile i = none := by
      rw [← Option.not_isSome_iff_eq_none]
      intro hq
      have hsome := hqp.values _ _ _ hq
      rw [hp] at hsome
      cases hsome
    simp [hp, hq, hnone _ _ _ hp]
  | some x =>
    obtain ⟨y, hq, hxy⟩ := hsome _ _ _ x hp
    simp [hp, hq, hxy, add_assoc]

/-- Predictions that cover each other add up. -/
theorem addEach_sum : ∀ (qs : List (ResourceUsagePrediction V)) (p : ResourceUsagePrediction V),
    (∀ q ∈ qs, p.CoveredBy q ∧ q.CoveredBy p) →
    ∃ out, addEach p qs = .ok out
      ∧ ∀ resType quantile i,
          out.value? resType quantile i = sumOver (p :: qs) resType quantile i
  | [], p, _ => ⟨p, rfl, fun t u i => (sumOver_singleton p t u i).symm⟩
  | q :: qs, p, h => by
      obtain ⟨hpq, hqp⟩ := h q (by simp)
      obtain ⟨sum, hsum⟩ := add_ok_iff.mpr hpq
      obtain ⟨hsp, hps⟩ := coveredBy_of_add hsum
      obtain ⟨out, hout, hvalue⟩ := addEach_sum qs sum (by
        intro q' hq'
        obtain ⟨hpq', hqp'⟩ := h q' (List.mem_cons_of_mem _ hq')
        exact ⟨hsp.trans hpq', hqp'.trans hps⟩)
      refine ⟨out, ?_, ?_⟩
      · unfold addEach at hout ⊢
        rw [List.foldlM_cons, hsum]
        exact hout
      · intro resType quantile i
        rw [hvalue, sumOver_add hsum hqp]

/-! ## The condensed prediction -/

/-- In whatever order the references are given, what comes out is the sum, and the objects that
were there are as they were. -/
def CondensesToSum (store : PredictionStore V) (refs : List Nat)
    (ps : List (ResourceUsagePrediction V)) : Prop :=
  ∀ refs', refs'.Perm refs → ∃ new r out,
    store.condensePredictions refs' = (.ok r, store ++ new) ∧ (store ++ new)[r]? = some out
      ∧ ∀ resType quantile i, out.value? resType quantile i = sumOver ps resType quantile i

omit [AddCommMonoid V] in
theorem RefersTo.mem {store : PredictionStore V} {refs : List Nat}
    {ps : List (ResourceUsagePrediction V)} (h : RefersTo store refs ps)
    {p : ResourceUsagePrediction V} (hp : p ∈ ps) : ∃ r ∈ refs, store[r]? = some p := by
  induction h with
  | nil => exact absurd hp List.not_mem_nil
  | @cons r q refs ps hr _ ih =>
    rcases List.mem_cons.mp hp with rfl | hp
    · exact ⟨r, by simp, hr⟩
    · obtain ⟨r', hr', hget⟩ := ih hp
      exact ⟨r', List.mem_cons_of_mem _ hr', hget⟩

omit [AddCommMonoid V] in
/-- The same references in another order, and what they refer to. -/
theorem RefersTo.perm {store : PredictionStore V} {refs refs' : List Nat}
    {ps : List (ResourceUsagePrediction V)} (h : RefersTo store refs ps) (hperm : refs'.Perm refs) :
    ∃ ps', RefersTo store refs' ps' ∧ ps'.Perm ps := List.perm_comp_forall₂ hperm h

/-- When the second reference given does not cover the first, condensing raises. -/
theorem coveredBy_of_condenses {store : PredictionStore V} {r r' s : Nat} {rest : List Nat}
    {ps : List (ResourceUsagePrediction V)} {p q : ResourceUsagePrediction V}
    {new : PredictionStore V} (hrefs : RefersTo store (r :: r' :: rest) ps)
    (hp : store[r]? = some p) (hq : store[r']? = some q)
    (hok : store.condensePredictions (r :: r' :: rest) = (.ok s, store ++ new)) :
    p.CoveredBy q := by
  obtain _ | @⟨_, p', _, ps, hp', hrefs⟩ := hrefs
  obtain _ | @⟨_, q', _, ps, hq', hrefs⟩ := hrefs
  obtain rfl := Option.some.inj (hp.symm.trans hp')
  obtain rfl := Option.some.inj (hq.symm.trans hq')
  obtain ⟨new', result, hrun, hsum, _⟩ := addAll_spec _ _ _ _ _ hp (List.Forall₂.cons hq hrefs)
  have hresult : result = .ok s := (Prod.mk.inj (hrun.symm.trans hok)).1
  obtain ⟨sum, hsum, _⟩ := hsum s hresult
  unfold addEach at hsum
  rw [List.foldlM_cons] at hsum
  obtain ⟨first, hfirst, _⟩ := bind_eq_ok.mp hsum
  exact add_ok_iff.mp ⟨first, hfirst⟩

/-- **Predictions condense to their sum when they are all alike**, and only then. -/
theorem condense_sums_iff {store : PredictionStore V} {refs : List Nat}
    {ps : List (ResourceUsagePrediction V)} (hrefs : RefersTo store refs ps) :
    CondensesToSum store refs ps ↔ AllAlike ps := by
  refine ⟨?_, ?_⟩
  · intro hsums p hp q hq
    obtain ⟨r, hr, hgetp⟩ := hrefs.mem hp
    obtain ⟨r', hr', hgetq⟩ := hrefs.mem hq
    by_cases heq : r = r'
    · subst heq
      obtain rfl := Option.some.inj (hgetp.symm.trans hgetq)
      exact CoveredBy.refl p
    · -- let the two come first
      have hmem : r' ∈ refs.erase r := (List.mem_erase_of_ne (Ne.symm heq)).mpr hr'
      have hperm : (r :: r' :: (refs.erase r).erase r').Perm refs :=
        ((List.perm_cons_erase hr).trans ((List.perm_cons_erase hmem).cons r)).symm
      obtain ⟨ps', hrefs', _⟩ := hrefs.perm hperm
      obtain ⟨new, s, _, hok, _⟩ := hsums _ hperm
      exact coveredBy_of_condenses hrefs' hgetp hgetq hok
  · intro halike refs' hperm
    obtain ⟨ps', hrefs', hps⟩ := hrefs.perm hperm
    cases hrefs' with
    | nil =>
      refine ⟨[ResourceUsagePrediction.new OrderedDict.empty], store.length,
        ResourceUsagePrediction.new OrderedDict.empty, rfl, List.getElem?_concat_length, ?_⟩
      · intro resType quantile i
        rw [hps.symm.eq_nil]
        rfl
    | @cons first p others qs hfirst hothers =>
      obtain ⟨out, hout, hvalue⟩ := addEach_sum qs p (by
        intro q hq
        have hpmem : p ∈ ps := hps.subset (by simp)
        have hqmem : q ∈ ps := hps.subset (List.mem_cons_of_mem _ hq)
        exact ⟨halike p hpmem q hqmem, halike q hqmem p hpmem⟩)
      obtain ⟨new, result, hrun, hsum, hok⟩ := addAll_spec _ _ _ _ _ hfirst hothers
      obtain ⟨r, rfl⟩ := hok out hout
      obtain ⟨sum, hsum, hget⟩ := hsum r rfl
      obtain rfl := Except.ok.inj (hout.symm.trans hsum)
      exact ⟨new, r, out, hrun, hget,
        fun t u i => (hvalue t u i).trans (sumOver_perm hps t u i)⟩

end

/-! ## Two containers -/

/-- A prediction of cpu in one window, and of memory where there is a list of quantiles. -/
def rawOf (cpu : Int) (memory : Option (List (RawQuantile Int))) : RawPrediction Int :=
  OrderedDict.ofPairs [("cpu", some [⟨"p50", ["0-10"], [cpu]⟩]), ("memMB", memory)]

/-- A prediction added to itself. -/
theorem condense_sums_iff_self :
    CondensesToSum [ResourceUsagePrediction.new (rawOf 1 (some [⟨"p50", ["0-10"], [512]⟩]))] [0, 0]
      [ResourceUsagePrediction.new (rawOf 1 (some [⟨"p50", ["0-10"], [512]⟩])),
        ResourceUsagePrediction.new (rawOf 1 (some [⟨"p50", ["0-10"], [512]⟩]))] := by
  refine (condense_sums_iff (.cons rfl (.cons rfl .nil))).mpr ?_
  intro p hp q hq
  have heq : ∀ r s : ResourceUsagePrediction Int, r ∈ [s, s] → r = s := by
    intro r s hr
    simpa using hr
  rw [heq p _ hp, heq q _ hq]
  exact CoveredBy.refl _

/-- Where one container has a prediction of memory and the other has none, adding them raises or
loses it. -/
theorem condense_loses :
    (PredictionStore.condensePredictions
        [ResourceUsagePrediction.new (rawOf 1 (some [⟨"p50", ["0-10"], [512]⟩])),
          ResourceUsagePrediction.new (rawOf 2 none)] [0, 1]).1 = .error (.keyError "p50")
      ∧ (PredictionStore.condensePredictions
          [ResourceUsagePrediction.new (rawOf 1 (some [⟨"p50", ["0-10"], [512]⟩])),
            ResourceUsagePrediction.new (rawOf 2 none)] [1, 0]).1 = .ok 2
      ∧ ((PredictionStore.condensePredictions
          [ResourceUsagePrediction.new (rawOf 1 (some [⟨"p50", ["0-10"], [512]⟩])),
            ResourceUsagePrediction.new (rawOf 2 none)] [1, 0]).2[2]?.bind
              (fun out => out.value? "memMB" "p50" 0)) = none
      ∧ sumOver [ResourceUsagePrediction.new (rawOf 1 (some [⟨"p50", ["0-10"], [512]⟩])),
            ResourceUsagePrediction.new (rawOf 2 none)] "memMB" "p50" 0 = some 512 := by
  decide

end TitusIsolate
