/-
# OteStack.Controller.EdgeNode — the controller that reports for unreachable nodes.

`pkg/controller/edgenode`.  For every node there is an EdgeNode object that keeps the true status.  When
the master reports a node as unknown, the controller marks the EdgeNode as not ready, puts the node into
`updateNodeMap` and from then on reports it as ready, again and again (`updateNodeStatus`).  It tells its
own reports from those of a kubelet by their reason.

A handler is a program against the API server (`Api`), run under a pattern of failures.  The informer
calls the handlers one after another, so a notification is handled in one move; the map of an informer's
handler and that of a tick are the same one.  Only reads, writes and deletions of EdgeNodes and patches of
node conditions are kept of the server; a conflict is one of the failures.
-/
import OteStack.Lib.CustomResource
import OteStack.Lib.Faults

namespace OteStack.Controller

open OteStack.Lib
open OteStack.Lib.KubeApi (Error)

/-! ## Nodes and their conditions -/

/-- `corev1.NodeConditionType`. -/
inductive NodeConditionType where
  | ready
  | memoryPressure
  | diskPressure
  | pidPressure
  | networkUnavailable
  | other (name : String)
  deriving DecidableEq, Repr

/-- `corev1.ConditionStatus`. -/
inductive ConditionStatus where
  | true
  | false
  | unknown
  deriving DecidableEq, Repr

/-- A condition of a node. -/
structure NodeCondition where
  type : NodeConditionType
  status : ConditionStatus
  reason : String
  message : String
  lastHeartbeatTime : Int
  deriving DecidableEq, Repr

/-- A node as the informer delivers it. -/
structure Node where
  name : String
  resourceVersion : String
  conditions : List NodeCondition
  deriving DecidableEq, Repr

def edgeControllerReady : String := "EdgeControllerReady"

def edgeNodeNotReady : String := "NotReady"

def edgeNodeReady : String := "Ready"

/-- Go's `GetNodeCondition`: the index of the first condition of the type, and the condition. -/
def getNodeCondition (conditions : List NodeCondition) (conditionType : NodeConditionType) :
    Int × Option NodeCondition :=
  match conditions.findIdx? fun c => c.type == conditionType with
  | some i => (i, conditions[i]?)
  | none => (-1, none)

/-- The Ready condition of a node. -/
def Node.ready (node : Node) : Option NodeCondition := (getNodeCondition node.conditions .ready).2

/-- Go's `getNewNodeConditionData`: what the controller reports for a node. -/
def getNewNodeConditionData (now : Int) : List NodeCondition := [
  ⟨.memoryPressure, .false, "KubeletHasSufficientMemory", "kubelet has sufficient memory available", now⟩,
  ⟨.diskPressure, .false, "KubeletHasNoDiskPressure", "kubelet has no disk pressure", now⟩,
  ⟨.pidPressure, .false, "KubeletHasSufficientPID", "kubelet has sufficient PID available", now⟩,
  ⟨.ready, .true, edgeControllerReady, "Edgecontroller is posting ready status", now⟩]

/-! ## The API server -/

/-- The status of every EdgeNode in `kube-system`, and the conditions of every node. -/
structure ApiServer where
  edgeNodes : GoMap String String
  nodes : GoMap String (List NodeCondition)

/-- The calls of the controller. -/
inductive Request where
  | get (name : String)
  | create (name status : String)
  | update (name status : String)
  | delete (name : String)
  | patchStatus (name : String) (data : List NodeCondition)

/-- The node a call is about. -/
def Request.name : Request → String
  | .get name => name
  | .create name _ => name
  | .update name _ => name
  | .delete name => name
  | .patchStatus name _ => name

/-- What a call answers. -/
def Request.Answer : Request → Type
  | .get _ => String
  | _ => Unit

/-- A strategic merge of conditions: those of the patch replace the ones of the same type. -/
def mergeConditions (conditions data : List NodeCondition) : List NodeCondition :=
  conditions.map (fun c => (data.find? fun d => d.type == c.type).getD c) ++
    data.filter fun d => !conditions.any fun c => c.type == d.type

/-- The server. -/
def serve (s : ApiServer) : (x : Request) → Except Error x.Answer × ApiServer
  | .get name =>
      match s.edgeNodes.get name with
      | none => (.error (.api .notFound), s)
      | some status => (.ok status, s)
  | .create name status =>
      match s.edgeNodes.get name with
      | none => (.ok (), { s with edgeNodes := s.edgeNodes.set name status })
      | some _ => (.error (.api .alreadyExists), s)
  | .update name status =>
      match s.edgeNodes.get name with
      | none => (.error (.api .notFound), s)
      | some _ => (.ok (), { s with edgeNodes := s.edgeNodes.set name status })
  | .delete name =>
      match s.edgeNodes.get name with
      | none => (.error (.api .notFound), s)
      | some _ => (.ok (), { s with edgeNodes := s.edgeNodes.delete name })
  | .patchStatus name data =>
      match s.nodes.get name with
      | none => (.error (.api .notFound), s)
      | some conditions =>
          (.ok (), { s with nodes := s.nodes.set name (mergeConditions conditions data) })

/-- A program against the server. -/
abbrev Api := Proc Request fun x => Except Error x.Answer

/-- `EdgeNodes("kube-system").Get`. -/
def getEdgeNode (name : String) : Api (Except Error String) := .call (.get name) .done

/-- `EdgeNodes("kube-system").Create`. -/
def createEdgeNode (name status : String) : Api (Except Error Unit) := .call (.create name status) .done

/-- `EdgeNodes("kube-system").Update` of the status. -/
def updateEdgeNode (name status : String) : Api (Except Error Unit) := .call (.update name status) .done

/-- `EdgeNodes("kube-system").Delete`. -/
def deleteEdgeNode (name : String) : Api (Except Error Unit) := .call (.delete name) .done

/-- `Nodes().PatchStatus`. -/
def patchStatus (name : String) (data : List NodeCondition) : Api (Except Error Unit) :=
  .call (.patchStatus name data) .done

/-! ## The handlers -/

/-- The nodes the controller reports for. -/
abbrev UpdateNodeMap := GoMap String Unit

/-- Go's `addUpdatedNode`. -/
def addUpdatedNode (m : UpdateNodeMap) (name : String) : UpdateNodeMap :=
  if m.get name = none then m.set name () else m

/-- Go's `deleteUpdatedNode`. -/
def deleteUpdatedNode (m : UpdateNodeMap) (name : String) : UpdateNodeMap :=
  if m.get name = none then m else m.delete name

/-- Go's `updateEdgeNodeStatus`. -/
def updateEdgeNodeStatus (nodeName desiredStatus : String) : Api (Except String Unit) := do
  match ← getEdgeNode nodeName with
  | .error err => pure (.error ("get edge node " ++ nodeName ++ " failed: " ++ err.message))
  | .ok status =>
      if status = desiredStatus then pure (.ok ())
      else
        match ← updateEdgeNode nodeName desiredStatus with
        | .error err => pure (.error ("update edge node " ++ nodeName ++ " failed: " ++ err.message))
        | .ok () => pure (.ok ())

/-- The first half of `handleNodeAdd`: whether the handler goes on.  An error that is not "not found" is
only logged. -/
def ensureEdgeNode (name : String) : Api Bool := do
  match ← getEdgeNode name with
  | .error err =>
      if err = .api .notFound then
        match ← createEdgeNode name edgeNodeNotReady with
        | .error _ => pure false
        | .ok () => pure true
      else pure true
  | .ok _ => pure true

/-- The condition for which `handleNodeAdd` takes over the reports. -/
def NeedsReport (condition : NodeCondition) : Prop :=
  condition.status = .unknown ∨ condition.reason = edgeControllerReady

instance (condition : NodeCondition) : Decidable (NeedsReport condition) :=
  inferInstanceAs (Decidable (_ ∨ _))

/-- Mark the EdgeNode as not ready and report for the node; an error of the first is only logged. -/
def takeOver (m : UpdateNodeMap) (name : String) : Api UpdateNodeMap := do
  let _ ← updateEdgeNodeStatus name edgeNodeNotReady
  pure (addUpdatedNode m name)

/-- Go's `handleNodeAdd`. -/
def handleNodeAdd (node : Node) (m : UpdateNodeMap) : Api UpdateNodeMap := do
  if ← ensureEdgeNode node.name then
    match node.ready with
    | none => pure m
    | some condition => if NeedsReport condition then takeOver m node.name else pure m
  else pure m

/-- Go's `handleNodeUpdate`. -/
def handleNodeUpdate (node : Node) (m : UpdateNodeMap) : Api UpdateNodeMap :=
  match node.ready with
  | none => do
      let _ ← updateEdgeNodeStatus node.name edgeNodeNotReady
      pure m
  | some condition =>
      if condition.status = .unknown then takeOver m node.name
      else if condition.reason = edgeControllerReady then pure m
      else do
        let _ ← updateEdgeNodeStatus node.name edgeNodeReady
        pure (deleteUpdatedNode m node.name)

/-- The `UpdateFunc` of `Start`: a periodic resync is dropped. -/
def updateFunc (oldNode newNode : Node) (m : UpdateNodeMap) : Api UpdateNodeMap :=
  if newNode.resourceVersion = oldNode.resourceVersion then pure m else handleNodeUpdate newNode m

/-- Go's `handleNodeDelete`. -/
def handleNodeDelete (node : Node) (m : UpdateNodeMap) : Api UpdateNodeMap := do
  let _ ← deleteEdgeNode node.name
  pure (deleteUpdatedNode m node.name)

/-- Go's `updateNodeStatus`. -/
def updateNodeStatus (it : MapOrder String) (now : Int) (m : UpdateNodeMap) : Api UpdateNodeMap := do
  Proc.forEach (fun name => do
    let _ ← patchStatus name (getNewNodeConditionData now)
    pure ()) (it.order m)
  pure m

/-! ## The controller at work -/

/-- What the handler of deletions gets: the last state of a node, or a tombstone of the informer. -/
inductive DeletedObject where
  | node (node : Node)
  | finalStateUnknown (key : String)

/-- What the controller reacts to. -/
inductive Event where
  | add (node : Node)
  | update (oldNode newNode : Node)
  | delete (obj : DeletedObject)
  | tick (now : Int)

/-- What runs for an event.  The type assertion in `handleNodeDelete` panics for a tombstone. -/
def handler (it : MapOrder String) : Event → Option (UpdateNodeMap → Api UpdateNodeMap)
  | .add node => some (handleNodeAdd node)
  | .update oldNode newNode => some (updateFunc oldNode newNode)
  | .delete (.node node) => some (handleNodeDelete node)
  | .delete (.finalStateUnknown _) => none
  | .tick now => some (updateNodeStatus it now)

/-- The controller and the server. -/
structure EdgeNodeController where
  updateNodeMap : UpdateNodeMap
  api : ApiServer

namespace EdgeNodeController

/-- Run a handler while the calls fail as given. -/
def exec (s : EdgeNodeController) (fates : List (Fate Error)) (p : UpdateNodeMap → Api UpdateNodeMap) :
    EdgeNodeController :=
  let res := Proc.run (withFaults serve) (p s.updateNodeMap) (s.api, fates)
  ⟨res.1, res.2.1⟩

/-- One event, with the failures of its calls. -/
def step (it : MapOrder String) (s : EdgeNodeController) : Event × List (Fate Error) →
    Option EdgeNodeController
  | (e, fates) => (handler it e).map (s.exec fates)

/-- One event whose calls are all served. -/
def stepServed (it : MapOrder String) (s : EdgeNodeController) (e : Event) : Option EdgeNodeController :=
  s.step it (e, [])

end EdgeNodeController

/-! ## What a handler touches -/

theorem get_addUpdatedNode (m : UpdateNodeMap) (name k : String) :
    (addUpdatedNode m name).get k = if k = name then some () else m.get k := by
  unfold addUpdatedNode
  split
  · exact GoMap.get_set m name k ()
  · split
    · subst k
      exact Option.ne_none_iff_exists'.mp ‹_› |>.elim fun _ h => h
    · rfl

theorem get_deleteUpdatedNode (m : UpdateNodeMap) (name k : String) :
    (deleteUpdatedNode m name).get k = if k = name then none else m.get k := by
  unfold deleteUpdatedNode
  split
  · split
    · subst k
      assumption
    · rfl
  · exact GoMap.get_delete m name k

theorem edgeNodes_serve_of_ne (s : ApiServer) {x : Request} {k : String} (h : k ≠ x.name) :
    (serve s x).2.edgeNodes.get k = s.edgeNodes.get k := by
  cases x with
  | get name =>
      simp only [serve]
      split <;> rfl
  | create name status =>
      simp only [serve]
      split
      · exact GoMap.get_set_of_ne _ h _
      · rfl
  | update name status =>
      simp only [serve]
      split
      · rfl
      · exact GoMap.get_set_of_ne _ h _
  | delete name =>
      simp only [serve]
      split
      · rfl
      · exact GoMap.get_delete_of_ne _ h
  | patchStatus name data =>
      simp only [serve]
      split <;> rfl

/-- A program that makes calls about one node only. -/
abbrev About {α : Type} (n : String) (Q : α → Prop) (p : Api α) : Prop :=
  p.Confined (fun x => x.name = n) Q

theorem about_updateEdgeNodeStatus (n desired : String) :
    About n (fun _ => True) (updateEdgeNodeStatus n desired) := by
  refine Proc.Confined.bind (Q := fun _ => True) ⟨rfl, fun _ => trivial⟩ fun res _ => ?_
  cases res with
  | error err => trivial
  | ok status =>
      dsimp only
      split
      · trivial
      · refine Proc.Confined.bind (Q := fun _ => True) ⟨rfl, fun _ => trivial⟩ fun res _ => ?_
        cases res <;> trivial

theorem about_ensureEdgeNode (n : String) : About n (fun _ => True) (ensureEdgeNode n) := by
  refine Proc.Confined.bind (Q := fun _ => True) ⟨rfl, fun _ => trivial⟩ fun res _ => ?_
  cases res with
  | error err =>
      dsimp only
      split
      · refine Proc.Confined.bind (Q := fun _ => True) ⟨rfl, fun _ => trivial⟩ fun res _ => ?_
        cases res <;> trivial
      · trivial
  | ok status => trivial

/-- The other nodes are in the map as before. -/
def SameElsewhere (n : String) (m m' : UpdateNodeMap) : Prop := ∀ k, k ≠ n → m'.get k = m.get k

theorem sameElsewhere_add (m : UpdateNodeMap) (n : String) : SameElsewhere n m (addUpdatedNode m n) := by
  intro k hk
  rw [get_addUpdatedNode, if_neg hk]

theorem sameElsewhere_delete (m : UpdateNodeMap) (n : String) :
    SameElsewhere n m (deleteUpdatedNode m n) := by
  intro k hk
  rw [get_deleteUpdatedNode, if_neg hk]

theorem about_takeOver (m : UpdateNodeMap) (n : String) : About n (SameElsewhere n m) (takeOver m n) :=
  Proc.Confined.bind (about_updateEdgeNodeStatus n _) fun _ _ => sameElsewhere_add m n

theorem about_handleNodeAdd (node : Node) (m : UpdateNodeMap) :
    About node.name (SameElsewhere node.name m) (handleNodeAdd node m) := by
  have hkeep : SameElsewhere node.name m m := fun _ _ => rfl
  refine Proc.Confined.bind (about_ensureEdgeNode node.name) fun goOn _ => ?_
  split
  · split
    · exact hkeep
    · split
      · exact about_takeOver m node.name
      · exact hkeep
  · exact hkeep

theorem about_updateFunc (oldNode newNode : Node) (m : UpdateNodeMap) :
    About newNode.name (SameElsewhere newNode.name m) (updateFunc oldNode newNode m) := by
  have hkeep : SameElsewhere newNode.name m m := fun _ _ => rfl
  unfold updateFunc handleNodeUpdate
  split
  · exact hkeep
  · split
    · exact Proc.Confined.bind (about_updateEdgeNodeStatus _ _) fun _ _ => hkeep
    · split
      · exact about_takeOver m newNode.name
      · split
        · exact hkeep
        · exact Proc.Confined.bind (about_updateEdgeNodeStatus _ _) fun _ _ => sameElsewhere_delete m _

theorem about_handleNodeDelete (node : Node) (m : UpdateNodeMap) :
    About node.name (SameElsewhere node.name m) (handleNodeDelete node m) :=
  Proc.Confined.bind (Q := fun _ => True) ⟨rfl, fun _ => trivial⟩ fun _ _ => sameElsewhere_delete m _

/-! ## What a handler does to its node -/

/-- The two calls of `updateEdgeNodeStatus` go through: the read is answered and the write carried out. -/
def Records (fates : List (Fate Error)) : Prop :=
  (Fate.next fates).Answered ∧ (Fate.next fates.tail).Applied

instance (fates : List (Fate Error)) : Decidable (Records fates) :=
  inferInstanceAs (Decidable (_ ∧ _))

/-- The status after `updateEdgeNodeStatus`. -/
def recorded (fates : List (Fate Error)) (desired : String) (status : Option String) : Option String :=
  if Records fates then status.map fun _ => desired else status

theorem recorded_notReady_iff {fates : List (Fate Error)} {status : Option String} :
    (∀ st, recorded fates edgeNodeNotReady status = some st → st = edgeNodeNotReady) ↔
      ((∃ st ∈ status, st ≠ edgeNodeNotReady) → Records fates) := by
  unfold recorded
  by_cases h : Records fates
  · cases status <;> simp [h]
  · cases status <;> simp [h]

theorem edgeNodes_updateEdgeNodeStatus (s : ApiServer) (n desired : String) (fates : List (Fate Error)) :
    (Proc.run (withFaults serve) (updateEdgeNodeStatus n desired) (s, fates)).2.1.edgeNodes.get n =
      recorded fates desired (s.edgeNodes.get n) := by
  cases hs : s.edgeNodes.get n with
  | none =>
      cases hf : Fate.next fates <;>
        simp [updateEdgeNodeStatus, getEdgeNode, Proc.run, withFaults, serve, hf, hs, recorded]
  | some status =>
      by_cases hd : status = desired
      · subst hd
        cases hf : Fate.next fates <;>
          simp [updateEdgeNodeStatus, getEdgeNode, Proc.run, withFaults, serve, hf, hs, recorded]
      · cases hf : Fate.next fates <;> cases hf' : Fate.next fates.tail <;>
          simp [updateEdgeNodeStatus, getEdgeNode, updateEdgeNode, Proc.run, withFaults, serve, hf, hf', hs,
            hd, recorded, Records, Fate.Answered, Fate.Applied]

/-- The first call is answered with "not found", whatever the server has. -/
def SaysNotFound (fates : List (Fate Error)) : Prop :=
  Fate.next fates = .refused (.api .notFound) ∨ Fate.next fates = .lost (.api .notFound)

instance (fates : List (Fate Error)) : Decidable (SaysNotFound fates) :=
  inferInstanceAs (Decidable (_ ∨ _))

/-- For a node with an EdgeNode, `handleNodeAdd` goes on unless it is told that there is none: it then
tries to create one, which fails. -/
theorem run_ensureEdgeNode_some {s : ApiServer} {n status : String} (hs : s.edgeNodes.get n = some status)
    (fates : List (Fate Error)) :
    (SaysNotFound fates → ∃ fates', Proc.run (withFaults serve) (ensureEdgeNode n) (s, fates) =
      (false, s, fates')) ∧
    (¬ SaysNotFound fates → Proc.run (withFaults serve) (ensureEdgeNode n) (s, fates) =
      (true, s, fates.tail)) := by
  constructor
  · rintro (hf | hf) <;> cases hf' : Fate.next fates.tail <;>
      simp [ensureEdgeNode, getEdgeNode, createEdgeNode, Proc.run, withFaults, serve, hf, hf', hs]
  · intro hnot
    rw [SaysNotFound, not_or] at hnot
    cases hf : Fate.next fates with
    | served => simp [ensureEdgeNode, getEdgeNode, Proc.run, withFaults, serve, hf, hs]
    | refused err =>
        have herr : err ≠ .api .notFound := fun h => hnot.1 (h ▸ hf)
        simp [ensureEdgeNode, getEdgeNode, Proc.run, withFaults, hf, herr]
    | lost err =>
        have herr : err ≠ .api .notFound := fun h => hnot.2 (h ▸ hf)
        simp [ensureEdgeNode, getEdgeNode, Proc.run, withFaults, serve, hf, hs, herr]

/-- For a node without an EdgeNode it makes one that is not ready, or none. -/
theorem run_ensureEdgeNode_none {s : ApiServer} {n : String} (hs : s.edgeNodes.get n = none)
    (fates : List (Fate Error)) :
    (Proc.run (withFaults serve) (ensureEdgeNode n) (s, fates)).2.1.edgeNodes.get n = none ∨
      (Proc.run (withFaults serve) (ensureEdgeNode n) (s, fates)).2.1.edgeNodes.get n =
        some edgeNodeNotReady := by
  have hcreate : (Proc.run (withFaults serve) (createEdgeNode n edgeNodeNotReady)
      (s, fates.tail)).2.1.edgeNodes.get n = none ∨
      (Proc.run (withFaults serve) (createEdgeNode n edgeNodeNotReady)
        (s, fates.tail)).2.1.edgeNodes.get n = some edgeNodeNotReady := by
    cases hf : Fate.next fates.tail <;>
      simp [createEdgeNode, Proc.run, withFaults, serve, hf, hs]
  have hpure : ∀ res : Except Error Unit, ∀ w, (Proc.run (withFaults serve) (match res with
      | .error _ => pure false
      | .ok () => pure true : Api Bool) w).2 = w := by
    intro res w
    cases res <;> rfl
  rw [ensureEdgeNode, Proc.run_do]
  have hget : (Proc.run (withFaults serve) (getEdgeNode n) (s, fates)).2 = (s, fates.tail) := by
    cases hf : Fate.next fates <;> simp [getEdgeNode, Proc.run, withFaults, serve, hf, hs]
  rw [hget]
  split
  · split
    · rw [Proc.run_do, hpure]
      exact hcreate
    · exact Or.inl hs
  · exact Or.inl hs

namespace EdgeNodeController

variable (s : EdgeNodeController) (fates : List (Fate Error))

/-- `handleNodeAdd` reports for the node from now on. -/
def TakesOver (node : Node) (fates : List (Fate Error)) : Prop :=
  ¬ SaysNotFound fates ∧ ∃ c ∈ node.ready, NeedsReport c

theorem exec_handleNodeAdd_some {node : Node} {status : String}
    (hs : s.api.edgeNodes.get node.name = some status) :
    (TakesOver node fates →
      (s.exec fates (handleNodeAdd node)).updateNodeMap.get node.name = some () ∧
      (s.exec fates (handleNodeAdd node)).api.edgeNodes.get node.name =
        recorded fates.tail edgeNodeNotReady (some status)) ∧
    (¬ TakesOver node fates → s.exec fates (handleNodeAdd node) = s) := by
  obtain ⟨hgiveUp, hgoOn⟩ := run_ensureEdgeNode_some hs fates
  constructor
  · rintro ⟨hnot, c, hc, hneeds⟩
    have hready : node.ready = some c := hc
    simp only [exec, handleNodeAdd, Proc.run_do, hgoOn hnot, hready, if_pos hneeds, takeOver, if_true,
      Proc.run_pure, edgeNodes_updateEdgeNodeStatus, get_addUpdatedNode, hs, and_self]
  · intro hno
    by_cases hsaid : SaysNotFound fates
    · obtain ⟨fates', hrun⟩ := hgiveUp hsaid
      simp [exec, handleNodeAdd, hrun]
    · have hneeds : ∀ c, node.ready = some c → ¬ NeedsReport c := fun c hc h => hno ⟨hsaid, c, hc, h⟩
      rcases hready : node.ready with _ | c
      · simp [exec, handleNodeAdd, hgoOn hsaid, hready]
      · simp [exec, handleNodeAdd, hgoOn hsaid, hready, hneeds c hready]

theorem exec_handleNodeAdd_none {node : Node} (hs : s.api.edgeNodes.get node.name = none) :
    (s.exec fates (handleNodeAdd node)).api.edgeNodes.get node.name = none ∨
      (s.exec fates (handleNodeAdd node)).api.edgeNodes.get node.name = some edgeNodeNotReady := by
  have hensured := run_ensureEdgeNode_none hs fates
  simp only [exec, handleNodeAdd, Proc.run_do]
  split
  · split
    · exact hensured
    · split
      · rw [takeOver, Proc.run_do, Proc.run_pure, edgeNodes_updateEdgeNodeStatus, recorded]
        rcases hensured with h | h
        · simp [h]
        · simp [h]
      · exact hensured
  · exact hensured

/-- Without failures there is an EdgeNode afterwards. -/
theorem exec_handleNodeAdd_served {node : Node} (hs : s.api.edgeNodes.get node.name = none) :
    (s.exec [] (handleNodeAdd node)).api.edgeNodes.get node.name = some edgeNodeNotReady := by
  have hensured : Proc.run (withFaults serve) (ensureEdgeNode node.name) (s.api, []) =
      (true, { s.api with edgeNodes := s.api.edgeNodes.set node.name edgeNodeNotReady }, []) := by
    simp [ensureEdgeNode, getEdgeNode, createEdgeNode, Proc.run, withFaults, Fate.next, serve, hs]
  simp only [exec, handleNodeAdd, Proc.run_do, hensured, if_true]
  split
  · simp
  · split
    · simp [takeOver, edgeNodes_updateEdgeNodeStatus, recorded]
    · simp

/-- The EdgeNode of a node that is reported without a Ready condition. -/
theorem exec_updateFunc_none {oldNode newNode : Node}
    (hrv : newNode.resourceVersion ≠ oldNode.resourceVersion) (hready : newNode.ready = none) :
    (s.exec fates (updateFunc oldNode newNode)).updateNodeMap = s.updateNodeMap ∧
      (s.exec fates (updateFunc oldNode newNode)).api.edgeNodes.get newNode.name =
        recorded fates edgeNodeNotReady (s.api.edgeNodes.get newNode.name) := by
  simp [exec, updateFunc, hrv, handleNodeUpdate, hready, edgeNodes_updateEdgeNodeStatus]

theorem exec_updateFunc_unknown {oldNode newNode : Node} {c : NodeCondition}
    (hrv : newNode.resourceVersion ≠ oldNode.resourceVersion) (hready : newNode.ready = some c)
    (hc : c.status = .unknown) :
    (s.exec fates (updateFunc oldNode newNode)).updateNodeMap.get newNode.name = some () ∧
      (s.exec fates (updateFunc oldNode newNode)).api.edgeNodes.get newNode.name =
        recorded fates edgeNodeNotReady (s.api.edgeNodes.get newNode.name) := by
  simp [exec, updateFunc, hrv, handleNodeUpdate, hready, hc, takeOver, edgeNodes_updateEdgeNodeStatus,
    get_addUpdatedNode]

/-- A report of the controller itself changes nothing. -/
theorem exec_updateFunc_own {oldNode newNode : Node} {c : NodeCondition}
    (hready : newNode.ready = some c) (hc : c.status ≠ .unknown) (hreason : c.reason = edgeControllerReady) :
    s.exec fates (updateFunc oldNode newNode) = s := by
  by_cases hrv : newNode.resourceVersion = oldNode.resourceVersion
  · simp [exec, updateFunc, hrv]
  · simp [exec, updateFunc, hrv, handleNodeUpdate, hready, hc, hreason]

/-- Any other condition counts as ready, whatever its status. -/
theorem exec_updateFunc_other {oldNode newNode : Node} {c : NodeCondition}
    (hrv : newNode.resourceVersion ≠ oldNode.resourceVersion) (hready : newNode.ready = some c)
    (hc : c.status ≠ .unknown) (hreason : c.reason ≠ edgeControllerReady) :
    (s.exec fates (updateFunc oldNode newNode)).updateNodeMap.get newNode.name = none ∧
      (s.exec fates (updateFunc oldNode newNode)).api.edgeNodes.get newNode.name =
        recorded fates edgeNodeReady (s.api.edgeNodes.get newNode.name) := by
  simp [exec, updateFunc, hrv, handleNodeUpdate, hready, hc, hreason, edgeNodes_updateEdgeNodeStatus,
    get_deleteUpdatedNode]

/-- A tick changes neither the map nor an EdgeNode. -/
theorem exec_updateNodeStatus (it : MapOrder String) (now : Int) :
    (s.exec fates (updateNodeStatus it now)).updateNodeMap = s.updateNodeMap ∧
      (s.exec fates (updateNodeStatus it now)).api.edgeNodes = s.api.edgeNodes := by
  have hpatches : (updateNodeStatus it now s.updateNodeMap).Confined
      (fun x => ∃ name data, x = .patchStatus name data) (· = s.updateNodeMap) := by
    refine Proc.Confined.bind (Proc.Confined.forEach (fun name => ?_) _) fun _ _ => rfl
    exact Proc.Confined.bind (Q := fun _ => True) ⟨⟨name, _, rfl⟩, fun _ => trivial⟩ fun _ _ => trivial
  refine run_withFaults_confined serve (I := fun a => a.edgeNodes = s.api.edgeNodes) ?_ hpatches fates rfl
  rintro a _ ⟨name, data, rfl⟩ ha
  simp only [serve]
  split <;> exact ha

end EdgeNodeController

end OteStack.Controller
