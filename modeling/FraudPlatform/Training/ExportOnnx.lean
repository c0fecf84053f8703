import FraudPlatform.Framework.Dataflow

namespace FraudPlatform.Training

open Framework Dataflow

variable {F : Type}

/-- An attribute, by the fields that the operations here have. -/
structure Attribute (F : Type) where
  name : String
  ints : List Int
  floats : List F
  deriving DecidableEq, Repr

structure Op (F : Type) where
  opType : String
  attributes : List (Attribute F)
  deriving DecidableEq, Repr

/-- What flows through a graph: class labels, a matrix, or a map for each row. -/
inductive Value (F : Type)
  | int64s (xs : List Int)
  | floats (rows : List (List F))
  | maps (rows : List (List (Int × F)))
  deriving DecidableEq, Repr

inductive ValueType
  | int64 (shape : List (Option Nat))
  | float (shape : List (Option Nat))
  | sequenceOfMaps
  deriving DecidableEq, Repr

structure ValueInfo where
  name : String
  type : ValueType
  deriving DecidableEq, Repr

structure Graph (F : Type) where
  node : List (Node (Op F))
  input : List ValueInfo
  initializer : List (String × Value F)
  output : List ValueInfo
  deriving DecidableEq, Repr

structure ModelProto (F : Type) where
  graph : Graph F
  /-- Domain and version. -/
  opsetImport : List (String × Nat)
  deriving DecidableEq, Repr

/-- What the nodes find before the first of them: an input that is fed, or an initializer. -/
def Graph.given (g : Graph F) (feed : Env (Value F)) : Env (Value F) := fun x =>
  (if x ∈ g.input.map ValueInfo.name then feed x else none).or (g.initializer.lookup x)

/-- A session's run: the values of the outputs, by name. -/
def Graph.run (run : Semantics (Op F) (Value F)) (feed : Env (Value F)) (g : Graph F) :
    Option (List (String × Value F)) := do
  let env ← eval run (g.given feed) g.node
  let names := g.output.map ValueInfo.name
  return names.zip (← names.mapM env)

def isZipMap (n : Node (Op F)) : Bool := n.op.opType = "ZipMap"

def isEnsemble (n : Node (Op F)) : Bool := n.op.opType = "TreeEnsembleClassifier"

/-- The rewiring of the inputs that read the map. -/
def rewiring (mapProbName rawProbName : String) (x : String) : String :=
  if x = mapProbName then rawProbName else x

/-- The graph rewired; `remove` takes the first node that is equal to the `ZipMap`, which is the
first `ZipMap` itself. -/
def Graph.rewired (graph : Graph F) (mapProbName rawProbName : String) : Graph F :=
  { graph with
    node := (graph.node.map (Node.rewire (rewiring mapProbName rawProbName))).eraseP isZipMap
    output := graph.output.map fun out =>
      if out.name = mapProbName then ⟨rawProbName,.float [none,some 2]⟩ else out }

/-- `_remove_zipmap`; `none` is an `IndexError`. -/
def removeZipmap (model : ModelProto F) : Option (ModelProto F) :=
  match model.graph.node.find? isZipMap with
  | none => some model
  | some zipmap => do
    let rawProbName ← zipmap.input[0]?
    let mapProbName ← zipmap.output[0]?
    return { model with graph := model.graph.rewired mapProbName rawProbName }

/-- The node `tec` alone, without hit rates and under the names that the Go server asks for. -/
def Graph.ensembleOnly (graph : Graph F) (tec : Node (Op F)) (others : List String) : Graph F :=
  let attributes := tec.op.attributes.eraseP (·.name = "nodes_hitrates")
  { graph with
    node := [⟨{ tec.op with attributes },tec.input,"label" :: "probabilities" :: others⟩]
    output := [⟨"label",.int64 [none]⟩,⟨"probabilities",.float [none,some 2]⟩] }

/-- The part of the challenger's `_export_onnx` that makes a graph of the ensemble alone;
`none` is an `IndexError`. -/
def exportEnsemble (onnxModel : ModelProto F) : Option (ModelProto F) :=
  match onnxModel.graph.node.find? isEnsemble with
  | none => some onnxModel
  | some tec =>
    match tec.output with
    | _ :: _ :: others =>
      some ⟨onnxModel.graph.ensembleOnly tec others,onnxModel.opsetImport.filter (·.1 ≠ "")⟩
    | _ => none

/-- `classlabels_int64s` -/
def Op.classLabels (op : Op F) : List Int :=
  ((op.attributes.find? (·.name = "classlabels_int64s")).map Attribute.ints).getD []

/-- A row of probabilities under the class labels. -/
def zipRow (labels : List Int) (row : List F) : List (Int × F) := labels.zip row

/-- What the export relies on of the operators. -/
structure Documented (run : Semantics (Op F) (Value F)) : Prop where
  zipMap : ∀ op args results, op.opType = "ZipMap" → run op args = some results →
    ∃ rows, args = [.floats rows] ∧ results = [.maps (rows.map (zipRow op.classLabels))] ∧
      ∀ row ∈ rows, row.length = op.classLabels.length
  ensemble : ∀ op args results, op.opType = "TreeEnsembleClassifier" →
    run op args = some results → ∃ labels rows, results = [.int64s labels,.floats rows]
  /-- Hit rates are a hint for optimisers. -/
  hitrates : ∀ op : Op F, op.opType = "TreeEnsembleClassifier" →
    run { op with attributes := op.attributes.eraseP (·.name = "nodes_hitrates") } = run op

/-- A map and the row of the raw tensor that holds the same under the same class. -/
structure SameRow (labels : List Int) (entries : List (Int × F)) (row : List F) : Prop where
  length : row.length = labels.length
  column : ∀ (j : Nat) (label : Int), labels[j]? = some label → entries.lookup label = row[j]?

/-- The same value, or the matrix in the place of the maps. -/
inductive Unzipped (labels : List Int) : Value F → Value F → Prop
  | same (v : Value F) : Unzipped labels v v
  | raw {maps : List (List (Int × F))} {rows : List (List F)}
    (h : List.Forall₂ (SameRow labels) maps rows) : Unzipped labels (.maps maps) (.floats rows)

theorem lookup_zip_nodup {labels : List Int} (nodup : labels.Nodup) {row : List F}
    (length : row.length = labels.length) {j : Nat} {label : Int} (hj : labels[j]? = some label) :
    (labels.zip row).lookup label = row[j]? := by
  induction labels generalizing row j with
  | nil => simp at hj
  | cons first labels ih =>
    cases row with
    | nil => simp at length
    | cons p row =>
      rw [List.nodup_cons] at nodup
      rw [List.zip_cons_cons, List.lookup_cons]
      cases j with
      | zero =>
        obtain rfl : first = label := Option.some.inj hj
        simp
      | succ j =>
        rw [List.getElem?_cons_succ] at hj
        have member := List.mem_of_getElem? hj
        have ne : (label == first) = false := by
          rw [beq_eq_false_iff_ne]
          exact fun same => nodup.1 (same ▸ member)
        rw [ne, List.getElem?_cons_succ]
        exact ih nodup.2 (Nat.succ.inj length) hj

theorem unzipped_zipRow {labels : List Int} (nodup : labels.Nodup) {rows : List (List F)}
    (h : ∀ row ∈ rows, row.length = labels.length) :
    Unzipped labels (.maps (rows.map (zipRow labels))) (.floats rows) := by
  apply Unzipped.raw
  rw [List.forall₂_map_left_iff, List.forall₂_same]
  intro row hr
  exact ⟨h row hr,fun j label hj => lookup_zip_nodup nodup (h row hr) hj⟩

/-- An operation that takes nothing but a matrix does not meet the rewiring. -/
theorem respects_of_floats (labels : List Int) {f : List (Value F) → Option (List (Value F))}
    (h : ∀ args results, f args = some results → ∃ rows, args = [.floats rows]) :
    Respects (Unzipped labels) f := by
  intro args args' results related hr
  obtain ⟨rows, rfl⟩ := h args results hr
  obtain ⟨v', vs', head, rest, rfl⟩ := List.forall₂_cons_left_iff.mp related
  obtain rfl := List.forall₂_nil_left_iff.mp rest
  cases head
  exact ⟨results,hr,List.forall₂_same.mpr fun v _ => .same v⟩

theorem zipMap_respects {run : Semantics (Op F) (Value F)} (doc : Documented run)
    (labels : List Int) {op : Op F} (h : op.opType = "ZipMap") :
    Respects (Unzipped labels) (run op) := by
  apply respects_of_floats
  intro args results hr
  obtain ⟨rows, same, _⟩ := doc.zipMap op args results h hr
  exact ⟨rows,same⟩

section RemoveZipmap

variable {run : Semantics (Op F) (Value F)} {mid : Env (Value F)} {zipmap : Node (Op F)}
  {pre post : List (Node (Op F))} {rawProbName mapProbName : String}

/-- Before the `ZipMap` nothing reads its map. -/
theorem rewire_before {env : Env (Value F)} (h : eval run env pre = some mid)
    (given : env mapProbName = none) (unmade : mapProbName ∉ pre.flatMap (·.output)) :
    pre.map (Node.rewire (rewiring mapProbName rawProbName)) = pre := by
  have unread := notMem_input h given unmade
  rw [List.map_congr_left (g := id), List.map_id]
  intro n hn
  have same : n.input.map (rewiring mapProbName rawProbName) = n.input := by
    rw [List.map_congr_left (g := id), List.map_id]
    intro x hx
    have ne : x ≠ mapProbName := fun same => unread n hn (same ▸ hx)
    exact if_neg ne
  rw [Node.rewire, same, id]

/-- Where the map was, the raw tensor is. -/
theorem simulates_zipmap {labels : List Int} {rows : List (List F)} (nodup : labels.Nodup)
    (raw : mid rawProbName = some (.floats rows)) (ho : zipmap.output[0]? = some mapProbName)
    (lengths : ∀ row ∈ rows, row.length = labels.length) :
    Simulates (Unzipped labels) (rewiring mapProbName rawProbName)
      (assign mid zipmap.output [.maps (rows.map (zipRow labels))]) mid := by
  obtain ⟨others, houtput⟩ : ∃ others, zipmap.output = mapProbName :: others := by
    cases hc : zipmap.output with
    | nil => simp [hc] at ho
    | cons first others => exact ⟨others,by rw [hc] at ho; rw [Option.some.inj ho]⟩
  intro x v hv
  rw [assign, houtput, List.zip_cons_cons, List.lookup_cons, List.zip_nil_right] at hv
  by_cases hx : x = mapProbName
  · rw [beq_iff_eq.mpr hx] at hv
    obtain rfl : Value.maps (rows.map (zipRow labels)) = v := Option.some.inj hv
    exact ⟨.floats rows,by rw [rewiring, if_pos hx, raw],unzipped_zipRow nodup lengths⟩
  · rw [beq_eq_false_iff_ne.mpr hx] at hv
    exact ⟨v,by rw [rewiring, if_neg hx]; exact hv,.same v⟩

theorem eval_removeZipmap {env final : Env (Value F)} (doc : Documented run)
    (isZip : isZipMap zipmap = true) (hi : zipmap.input[0]? = some rawProbName)
    (ho : zipmap.output[0]? = some mapProbName) (nodup : zipmap.op.classLabels.Nodup)
    (ssa : SSA env (pre ++ zipmap :: post))
    (respects : ∀ n ∈ post, isZipMap n = false →
      Respects (Unzipped zipmap.op.classLabels) (run n.op))
    (h : eval run env (pre ++ zipmap :: post) = some final) :
    ∃ final', eval run env ((pre ++ post).map
        (Node.rewire (rewiring mapProbName rawProbName))) = some final' ∧
      Simulates (Unzipped zipmap.op.classLabels) (rewiring mapProbName rawProbName)
        final final' ∧
      ∃ rows, (∀ row ∈ rows, row.length = zipmap.op.classLabels.length) ∧
        final mapProbName = some (.maps (rows.map (zipRow zipmap.op.classLabels))) ∧
        final' rawProbName = some (.floats rows) := by
  have made : mapProbName ∈ zipmap.output := List.mem_of_getElem? ho
  rw [eval_append] at h
  obtain ⟨mid, before, after⟩ := Option.bind_eq_some_iff.mp h
  obtain ⟨args, results, ha, hr, rest⟩ := eval_cons after
  obtain ⟨rows, rfl, rfl, lengths⟩ := doc.zipMap _ _ _ (by simpa [isZipMap] using isZip) hr
  have ssaMid := ssa.after before
  have raw : mid rawProbName = some (.floats rows) := by
    obtain ⟨v, hv, read⟩ := mapM_getElem ha hi
    rw [read, ← hv]
    rfl
  have unmade : mapProbName ∉ pre.flatMap (·.output) ∧ mapProbName ∉ post.flatMap (·.output) := by
    have once := ssa.1
    rw [List.flatMap_append, List.flatMap_cons, List.nodup_append] at once
    obtain ⟨_, tail, apart⟩ := once
    rw [List.nodup_append] at tail
    exact ⟨fun hm => apart _ hm _ (List.mem_append_left _ made) rfl,
      fun hm => tail.2.2 _ made _ hm rfl⟩
  have notGiven : env mapProbName = none := by
    apply ssa.2
    rw [List.flatMap_append, List.flatMap_cons]
    exact List.mem_append_right _ (List.mem_append_left _ made)
  have unmadeRaw : rawProbName ∉ post.flatMap (·.output) := by
    intro remade
    have fresh := ssaMid.2 rawProbName
      (List.flatMap_cons ▸ List.mem_append_right _ remade)
    rw [raw] at fresh
    cases fresh
  rw [List.map_append, rewire_before before notGiven unmade.1, eval_append, before]
  have start := simulates_zipmap nodup raw ho lengths
  have simulated := start.eval (fun n hn => ?_) (fun n hn x hx => ?_) (fun n hn x hx => ?_) rest
  · obtain ⟨final', he', simulates⟩ := simulated
    have produced : (post.map (Node.rewire (rewiring mapProbName rawProbName))).flatMap (·.output) =
        post.flatMap (·.output) := by
      rw [List.flatMap_map]
      rfl
    refine ⟨final',he',simulates,rows,lengths,?_,?_⟩
    · rw [eval_frame rest unmade.2, assign_first ho]
    · rw [eval_frame he' (produced ▸ unmadeRaw), raw]
  · cases isOther : isZipMap n with
    | true => exact zipMap_respects doc _ (by simpa [isZipMap] using isOther)
    | false => exact respects n hn isOther
  · have ne : x ≠ mapProbName := fun same =>
      unmade.2 (List.mem_flatMap.mpr ⟨n,hn,same ▸ hx⟩)
    exact if_neg ne
  · by_cases same : x = mapProbName
    · rw [rewiring, if_pos same]
      exact fun remade => unmadeRaw (List.mem_flatMap.mpr ⟨n,hn,remade⟩)
    · rw [rewiring, if_neg same]
      exact hx

/-- A run, taken apart. -/
theorem Graph.run_eq_some {run : Semantics (Op F) (Value F)} {g : Graph F} {feed : Env (Value F)}
    {outputs : List (String × Value F)} :
    g.run run feed = some outputs ↔ ∃ final values, eval run (g.given feed) g.node = some final ∧
      (g.output.map ValueInfo.name).mapM final = some values ∧
      (g.output.map ValueInfo.name).zip values = outputs := by
  simp only [Graph.run, Option.bind_eq_bind, Option.bind_eq_some_iff, Option.pure_def,
    Option.some.injEq]
  constructor
  · intro h
    obtain ⟨final, hf, values, hv, same⟩ := h
    exact ⟨final,values,hf,hv,same⟩
  · intro h
    obtain ⟨final, values, hf, hv, same⟩ := h
    exact ⟨final,hf,values,hv,same⟩

theorem rewired_node {g : Graph F} (hnode : g.node = pre ++ zipmap :: post)
    (isZip : isZipMap zipmap = true) (first : ∀ n ∈ pre, (!isZipMap n) = true) :
    (g.rewired mapProbName rawProbName).node =
      (pre ++ post).map (Node.rewire (rewiring mapProbName rawProbName)) := by
  have others : ∀ n ∈ pre, ¬isZipMap n = true := by
    intro n hn
    simpa using first n hn
  change (g.node.map (Node.rewire (rewiring mapProbName rawProbName))).eraseP isZipMap = _
  rw [hnode, List.eraseP_map]
  change ((pre ++ zipmap :: post).eraseP isZipMap).map _ = _
  rw [List.eraseP_append_right _ others, List.eraseP_cons_of_pos isZip]

theorem rewired_output (g : Graph F) :
    (g.rewired mapProbName rawProbName).output.map ValueInfo.name =
      (g.output.map ValueInfo.name).map (rewiring mapProbName rawProbName) := by
  change (g.output.map _).map _ = _
  rw [List.map_map, List.map_map]
  apply List.map_congr_left
  intro out _
  by_cases same : out.name = mapProbName <;> simp [rewiring, same]

end RemoveZipmap

/-- `_remove_zipmap` keeps what a model computes, when the other operators make the same of the raw
tensor as of the maps: the map output is the raw tensor with the numbers of the maps in the order of
the class labels, and every other output stays, maps made of that map apart. -/
theorem removeZipmap_preserves {run : Semantics (Op F) (Value F)} (doc : Documented run)
    {model : ModelProto F} {zipmap : Node (Op F)} {rawProbName mapProbName : String}
    (hz : model.graph.node.find? isZipMap = some zipmap)
    (hi : zipmap.input[0]? = some rawProbName) (ho : zipmap.output[0]? = some mapProbName)
    (nodup : zipmap.op.classLabels.Nodup) {feed : Env (Value F)}
    (ssa : SSA (model.graph.given feed) model.graph.node)
    (respects : ∀ n ∈ model.graph.node, isZipMap n = false →
      Respects (Unzipped zipmap.op.classLabels) (run n.op))
    {outputs : List (String × Value F)} (h : model.graph.run run feed = some outputs) :
    ∃ stripped outputs', removeZipmap model = some stripped ∧
      stripped.graph.node.countP isZipMap + 1 = model.graph.node.countP isZipMap ∧
      stripped.graph.run run feed = some outputs' ∧
      ∃ rows, (∀ row ∈ rows, row.length = zipmap.op.classLabels.length) ∧
        List.Forall₂ (fun o o' => if o.1 = mapProbName
          then o.2 = .maps (rows.map (zipRow zipmap.op.classLabels)) ∧
            o' = (rawProbName,.floats rows)
          else o'.1 = o.1 ∧ Unzipped zipmap.op.classLabels o.2 o'.2) outputs outputs' := by
  obtain ⟨isZip, pre, post, hnode, first⟩ := List.find?_eq_some_iff_append.mp hz
  obtain ⟨final, values, he, hv, rfl⟩ := Graph.run_eq_some.mp h
  rw [hnode] at ssa respects he
  obtain ⟨final', he', simulates, rows, lengths, zipped, raw⟩ :=
    eval_removeZipmap doc isZip hi ho nodup ssa
      (fun n hn => respects n (List.mem_append_right _ (List.mem_cons_of_mem _ hn))) he
  obtain ⟨values', hv', _⟩ := simulates.inputs hv
  have node : (model.graph.rewired mapProbName rawProbName).node =
      (pre ++ post).map (Node.rewire (rewiring mapProbName rawProbName)) :=
    rewired_node hnode isZip first
  have removed : removeZipmap model =
      some { model with graph := model.graph.rewired mapProbName rawProbName } := by
    rw [removeZipmap, hz]
    simp [hi, ho]
  refine ⟨_,_,removed,?_,Graph.run_eq_some.mpr ⟨final',values',?_,?_,rfl⟩,rows,lengths,?_⟩
  · rw [node, hnode, List.countP_map, List.countP_append, List.countP_append,
      List.countP_cons_of_pos isZip, ← Nat.add_assoc]
    rfl
  · rw [node]
    exact he'
  · rw [rewired_output]
    exact hv'
  · rw [rewired_output]
    refine (zip_read hv hv').imp ?_
    intro o o' read
    obtain ⟨value, name, value'⟩ := read
    split_ifs with isMap
    · rw [isMap, zipped] at value
      rw [rewiring, if_pos isMap] at name value'
      rw [raw] at value'
      exact ⟨(Option.some.inj value).symm,Prod.ext name (Option.some.inj value').symm⟩
    · obtain ⟨v, hv, related⟩ := simulates o.1 o.2 value
      rw [value', Option.some.injEq] at hv
      rw [rewiring, if_neg isMap] at name
      exact ⟨name,hv ▸ related⟩

section Sample

/-- An ensemble that finds three in four for every row, and `ZipMap`. -/
def smallRun : Semantics (Op Nat) (Value Nat) := fun op args =>
  match args with
  | [.floats rows] =>
    if op.opType = "ZipMap" then
      if ∀ row ∈ rows, row.length = op.classLabels.length then
        some [.maps (rows.map (zipRow op.classLabels))]
      else none
    else if op.opType = "TreeEnsembleClassifier" then
      some [.int64s (rows.map fun _ => 1),.floats (rows.map fun _ => [1,3])]
    else none
  | _ => none

theorem smallRun_floats {op : Op Nat} {args results : List (Value Nat)}
    (h : smallRun op args = some results) : ∃ rows, args = [.floats rows] := by
  unfold smallRun at h
  split at h
  · next rows => exact ⟨rows,rfl⟩
  · cases h

theorem smallRun_documented : Documented smallRun := by
  refine ⟨?_,?_,?_⟩
  · intro op args results ho hr
    obtain ⟨rows, rfl⟩ := smallRun_floats hr
    simp only [smallRun, ho, if_true] at hr
    split_ifs at hr with lengths
    exact ⟨rows,rfl,(Option.some.inj hr).symm,lengths⟩
  · intro op args results ho hr
    obtain ⟨rows, rfl⟩ := smallRun_floats hr
    simp only [smallRun, ho, if_true] at hr
    exact ⟨_,_,(Option.some.inj hr).symm⟩
  · intro op ho
    funext args
    simp only [smallRun, ho]
    rfl

def smallEnsemble : Node (Op Nat) :=
  ⟨⟨"TreeEnsembleClassifier",[⟨"nodes_hitrates",[],[1]⟩]⟩,["float_input"],["label","raw"]⟩

def smallZipmap : Node (Op Nat) :=
  ⟨⟨"ZipMap",[⟨"classlabels_int64s",[0,1],[]⟩]⟩,["raw"],["probabilities"]⟩

def smallModel : ModelProto Nat :=
  ⟨⟨[smallEnsemble,smallZipmap],[⟨"float_input",.float [none,some 1]⟩],[],
    [⟨"label",.int64 [none]⟩,⟨"probabilities",.sequenceOfMaps⟩]⟩,[("",9),("ai.onnx.ml",1)]⟩

def smallFeed : Env (Value Nat) := fun x => if x = "float_input" then some (.floats [[7],[8]]) else none

end Sample

/-- The model of one tree ensemble and its `ZipMap`. -/
theorem removeZipmap_preserves_small :
    ∃ stripped outputs', removeZipmap smallModel = some stripped ∧
      stripped.graph.node.countP isZipMap + 1 = smallModel.graph.node.countP isZipMap ∧
      stripped.graph.run smallRun smallFeed = some outputs' ∧
      ∃ rows, (∀ row ∈ rows, row.length = 2) ∧
        List.Forall₂ (fun o o' => if o.1 = "probabilities"
          then o.2 = .maps (rows.map (zipRow [0,1])) ∧ o' = ("raw",.floats rows)
          else o'.1 = o.1 ∧ Unzipped [0,1] o.2 o'.2)
          [("label",.int64s [1,1]),("probabilities",.maps [[(0,1),(1,3)],[(0,1),(1,3)]])]
          outputs' := by
  have found : smallModel.graph.node.find? isZipMap = some smallZipmap := by decide
  refine removeZipmap_preserves smallRun_documented found rfl rfl (by decide)
    ⟨by decide,by decide⟩ ?_ (by decide)
  exact fun n _ _ => respects_of_floats _ fun _ _ hr => smallRun_floats hr

section ExportEnsemble

variable {run : Semantics (Op F) (Value F)} {tec : Node (Op F)} {labelName probName : String}
  {others : List String} {labels : List Int} {rows : List (List F)}

theorem assign_outputs (env : Env (Value F)) (others : List String) (labels : List Int)
    (rows : List (List F)) (ne : labelName ≠ probName) :
    assign env (labelName :: probName :: others) [.int64s labels,.floats rows] labelName =
        some (.int64s labels) ∧
      assign env (labelName :: probName :: others) [.int64s labels,.floats rows] probName =
        some (.floats rows) := by
  have apart : (probName == labelName) = false := beq_eq_false_iff_ne.mpr ne.symm
  constructor
  · simp [assign]
  · simp [assign, List.lookup_cons, apart]

/-- What the run of the whole graph makes of the ensemble. -/
theorem ensemble_outputs {env final : Env (Value F)} {pre post : List (Node (Op F))}
    (doc : Documented run) (isTec : isEnsemble tec = true)
    (ho : tec.output = labelName :: probName :: others) (ssa : SSA env (pre ++ tec :: post))
    (h : eval run env (pre ++ tec :: post) = some final) :
    ∃ mid args labels rows, eval run env pre = some mid ∧ tec.input.mapM mid = some args ∧
      run tec.op args = some [.int64s labels,.floats rows] ∧
      final labelName = some (.int64s labels) ∧ final probName = some (.floats rows) := by
  rw [eval_append] at h
  obtain ⟨mid, before, after⟩ := Option.bind_eq_some_iff.mp h
  obtain ⟨args, results, ha, hr, rest⟩ := eval_cons after
  obtain ⟨labels, rows, rfl⟩ := doc.ensemble _ _ _ (by simpa [isEnsemble] using isTec) hr
  have ssaMid := ssa.after before
  have ne : labelName ≠ probName := by
    have once := ssaMid.1
    rw [List.flatMap_cons, List.nodup_append, ho, List.nodup_cons] at once
    exact fun same => once.1.1 (same ▸ List.mem_cons_self)
  obtain ⟨label, prob⟩ := assign_outputs mid others labels rows ne
  rw [← ho] at label prob
  have later : SSA (assign mid tec.output [.int64s labels,.floats rows]) post := ssaMid.tail
  exact ⟨mid,args,labels,rows,before,ha,hr,later.stable rest label,later.stable rest prob⟩

theorem ensembleOnly_run {g : Graph F} {feed : Env (Value F)} {args : List (Value F)}
    (doc : Documented run) (isTec : isEnsemble tec = true)
    (ha : tec.input.mapM (g.given feed) = some args)
    (hr : run tec.op args = some [.int64s labels,.floats rows]) :
    (g.ensembleOnly tec others).run run feed =
      some [("label",.int64s labels),("probabilities",.floats rows)] := by
  have hitrates := doc.hitrates tec.op (by simpa [isEnsemble] using isTec)
  have ne : "label" ≠ "probabilities" := by decide
  obtain ⟨label, prob⟩ := assign_outputs (g.given feed) others labels rows ne
  apply Graph.run_eq_some.mpr
  refine ⟨assign (g.given feed) ("label" :: "probabilities" :: others)
    [.int64s labels,.floats rows],[.int64s labels,.floats rows],?_,?_,rfl⟩
  · exact eval_cons_of (n := ⟨_,tec.input,_⟩) ha ((congrFun hitrates args).trans hr)
  · change ["label","probabilities"].mapM _ = _
    rw [List.mapM_cons, label, List.mapM_cons, prob]
    rfl

theorem ensembleOnly_inputs {g : Graph F} {feed : Env (Value F)}
    {outputs : List (String × Value F)}
    (h : (g.ensembleOnly tec others).run run feed = some outputs) :
    ∃ args, tec.input.mapM (g.given feed) = some args := by
  obtain ⟨final, _, he, _⟩ := Graph.run_eq_some.mp h
  obtain ⟨args, _, ha, _⟩ := eval_cons he
  exact ⟨args,ha⟩

end ExportEnsemble

/-- The graph of the ensemble alone runs exactly when nothing that was deleted fed the ensemble,
and then it returns what the ensemble returned in the whole graph. -/
theorem exportEnsemble_preserves_iff {run : Semantics (Op F) (Value F)} (doc : Documented run)
    {onnxModel : ModelProto F} {tec : Node (Op F)}
    (ht : onnxModel.graph.node.find? isEnsemble = some tec) {labelName probName : String}
    {others : List String} (ho : tec.output = labelName :: probName :: others)
    {feed : Env (Value F)} (ssa : SSA (onnxModel.graph.given feed) onnxModel.graph.node)
    {final : Env (Value F)}
    (h : eval run (onnxModel.graph.given feed) onnxModel.graph.node = some final) :
    ∃ exported, exportEnsemble onnxModel = some exported ∧
      ((∃ outputs, exported.graph.run run feed = some outputs) ↔
        ∀ x ∈ tec.input, ∃ v, onnxModel.graph.given feed x = some v) ∧
      ∀ outputs, exported.graph.run run feed = some outputs →
        ∃ labels rows, final labelName = some (.int64s labels) ∧
          final probName = some (.floats rows) ∧
          outputs = [("label",.int64s labels),("probabilities",.floats rows)] := by
  obtain ⟨isTec, pre, post, hnode, _⟩ := List.find?_eq_some_iff_append.mp ht
  rw [hnode] at ssa h
  obtain ⟨mid, args, labels, rows, before, ha, hr, label, prob⟩ :=
    ensemble_outputs doc isTec ho ssa h
  have exported : exportEnsemble onnxModel = some
      ⟨onnxModel.graph.ensembleOnly tec others,onnxModel.opsetImport.filter (·.1 ≠ "")⟩ := by
    rw [exportEnsemble, ht]
    simp only [ho]
  -- An input of the graph or an initializer still means the same when the ensemble reads it.
  have same : (∀ x ∈ tec.input, ∃ v, onnxModel.graph.given feed x = some v) →
      tec.input.mapM (onnxModel.graph.given feed) = some args := by
    intro given
    rw [← ha]
    apply mapM_congr
    intro x hx
    obtain ⟨v, hv⟩ := given x hx
    rw [ssa.before.stable before hv, hv]
  have returns (given : ∀ x ∈ tec.input, ∃ v, onnxModel.graph.given feed x = some v) :
      (onnxModel.graph.ensembleOnly tec others).run run feed =
        some [("label",.int64s labels),("probabilities",.floats rows)] :=
    ensembleOnly_run doc isTec (same given) hr
  have given {outputs : List (String × Value F)}
      (hrun : (onnxModel.graph.ensembleOnly tec others).run run feed = some outputs) :
      ∀ x ∈ tec.input, ∃ v, onnxModel.graph.given feed x = some v := by
    intro x hx
    obtain ⟨args', ha'⟩ := ensembleOnly_inputs hrun
    exact mapM_some ha' hx
  refine ⟨_,exported,⟨fun ⟨outputs, hrun⟩ => given hrun,fun all => ⟨_,returns all⟩⟩,?_⟩
  intro outputs hrun
  have both := (returns (given hrun)).symm.trans hrun
  exact ⟨labels,rows,label,prob,(Option.some.inj both).symm⟩

theorem exportEnsemble_preserves_iff_small :
    ∃ exported, exportEnsemble smallModel = some exported ∧
      ((∃ outputs, exported.graph.run smallRun smallFeed = some outputs) ↔
        ∀ x ∈ ["float_input"], ∃ v, smallModel.graph.given smallFeed x = some v) ∧
      ∀ outputs, exported.graph.run smallRun smallFeed = some outputs →
        ∃ labels rows,
          assign (assign (smallModel.graph.given smallFeed) ["label","raw"]
            [.int64s [1,1],.floats [[1,3],[1,3]]]) ["probabilities"]
              [.maps [[(0,1),(1,3)],[(0,1),(1,3)]]] "label" =
              some (.int64s labels) ∧
          assign (assign (smallModel.graph.given smallFeed) ["label","raw"]
            [.int64s [1,1],.floats [[1,3],[1,3]]]) ["probabilities"]
              [.maps [[(0,1),(1,3)],[(0,1),(1,3)]]] "raw" =
              some (.floats rows) ∧
          outputs = [("label",.int64s labels),("probabilities",.floats rows)] := by
  have found : smallModel.graph.node.find? isEnsemble = some smallEnsemble := by decide
  exact exportEnsemble_preserves_iff smallRun_documented found rfl ⟨by decide,by decide⟩ rfl

end FraudPlatform.Training
