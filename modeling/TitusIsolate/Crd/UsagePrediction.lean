import TitusIsolate.Model.Workload

/-!
# Usage predictions

A prediction holds, for each resource and each quantile, one value for each window of
time. `condense_predictions` adds the predictions of a node's containers up, from the
left. `add` works on a copy of its first operand, and the loops run over the keys of
that copy.

Predictions are objects, and what is handed around are references to them. The store
below is the list of the objects made so far, so a reference is a position in it.
-/

namespace TitusIsolate

/-- One quantile of a raw prediction. -/
structure RawQuantile (V : Type) where
  quantile : String
  horizonMinutes : List String
  preds : List V

/-- A raw prediction: for each key, `None` or a list of quantiles. What it has under keys that
are no resource's is not read. -/
abbrev RawPrediction (V : Type) := OrderedDict String (Option (List (RawQuantile V)))

/-- `RESOURCE_KEYS` -/
def resourceKeys : List String := ["cpu", "memMB", "net_transMbps", "net_recvMbps"]

/-- `ResourceTypeUsagePrediction`: by quantile, the horizons and the predictions. -/
structure ResourceTypeUsagePrediction (V : Type) where
  horizonMinutes : OrderedDict String (List String)
  predictions : OrderedDict String (List V)

/-- `ResourceUsagePrediction`: what is predicted for each resource of a task. -/
structure ResourceUsagePrediction (V : Type) where
  resourceTypePredictions : OrderedDict String (ResourceTypeUsagePrediction V)

/-- `ResourceTypeUsagePrediction(raw_predictions)` -/
def ResourceTypeUsagePrediction.new {V : Type} (rawPredictions : Option (List (RawQuantile V))) :
    ResourceTypeUsagePrediction V :=
  (rawPredictions.getD []).foldl
    (fun t p =>
      { horizonMinutes := t.horizonMinutes.insert p.quantile p.horizonMinutes
        predictions := t.predictions.insert p.quantile p.preds })
    { horizonMinutes := OrderedDict.empty, predictions := OrderedDict.empty }

/-- `ResourceUsagePrediction(raw_predictions)` -/
def ResourceUsagePrediction.new {V : Type} (rawPredictions : RawPrediction V) :
    ResourceUsagePrediction V where
  resourceTypePredictions :=
    (rawPredictions.entries.filter (fun e => e.1 ∈ resourceKeys)).foldl
      (fun d e => d.insert e.1 (ResourceTypeUsagePrediction.new e.2)) OrderedDict.empty

section

variable {V : Type} [Add V]

/-- The loop over the window indices, from index `i` on. -/
def addWindows (other : OrderedDict String (List V)) (percentile : String) :
    Nat → List V → Except PyError (List V)
  | _, [] => .ok []
  | i, x :: xs => do
      let values ← getKey other percentile
      let y ← getItem values i
      let rest ← addWindows other percentile (i + 1) xs
      .ok ((x + y) :: rest)

/-- `add(self, other)` -/
def ResourceTypeUsagePrediction.add (self : ResourceTypeUsagePrediction V) :
    Option (ResourceTypeUsagePrediction V) → Except PyError (ResourceTypeUsagePrediction V)
  | none => .ok self
  | some other => do
      let predictions ← self.predictions.updateM
        (fun percentile predictions => addWindows other.predictions percentile 0 predictions)
      .ok { self with predictions := predictions }

/-- `add(self, other)` -/
def ResourceUsagePrediction.add (self : ResourceUsagePrediction V) :
    Option (ResourceUsagePrediction V) → Except PyError (ResourceUsagePrediction V)
  | none => .ok self
  | some other => do
      let resourceTypePredictions ← self.resourceTypePredictions.updateM
        (fun resType predictions => do
          let otherType ← getKey other.resourceTypePredictions resType
          predictions.add (some otherType))
      .ok { resourceTypePredictions := resourceTypePredictions }

/-- The objects made so far. -/
abbrev PredictionStore (V : Type) := List (ResourceUsagePrediction V)

namespace PredictionStore

/-- `store[self].add(store[other])`: what the call yields, and the objects after it. -/
def add (store : PredictionStore V) (self other : Nat) :
    Except PyError Nat × PredictionStore V :=
  match getItem store self with
  | .error e => (.error e, store)
  | .ok p =>
      match p.add store[other]? with
      | .error e => (.error e, store)
      | .ok out => (.ok store.length, store ++ [out])

/-- The loop of `__condense_predictions`, with `out` as it is. -/
def addAll (store : PredictionStore V) (out : Nat) :
    List Nat → Except PyError Nat × PredictionStore V
  | [] => (.ok out, store)
  | other :: others =>
      match store.add out other with
      | (.error e, store) => (.error e, store)
      | (.ok out, store) => addAll store out others

/-- `__condense_predictions(predictions)` -/
def condensePredictions (store : PredictionStore V) :
    List Nat → Except PyError Nat × PredictionStore V
  | [] => (.ok store.length, store ++ [ResourceUsagePrediction.new OrderedDict.empty])
  | first :: others => store.addAll first others

end PredictionStore

end

end TitusIsolate
