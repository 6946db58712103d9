/-
# OteStack.EdgeHub.WatchFilter — which objects a watch is about.

The watch handlers of `pkg/server`.  A watch first sends an event for every stored object it is about
(`GetInitWatchEvent`, one for each resource type) and then the live events that pass `checkIsNeedToWatch`,
which is one for all types.  Both look at the namespace and the name of the request and at its field
selector (`IsFilterFromQueryParams`).

For namespaced types the two filters are the same, up to the endpoints of a k3s agent: live events never
pass the selector `metadata.name=kubernetes`, whatever the namespace, and initial ones only pass it in
namespaces other than `default` (`initWatchEvent_agrees_iff`).
-/
import OteStack.EdgeHub.Storage

namespace OteStack.EdgeHub

open OteStack.Lib (GoMap MapOrder)
open OteStack.Lib.GoStrings (split)

variable {O B : Type}

/-! ## Requests and events -/

/-- The parameters of a watch; one that is missing is empty. -/
structure WatchParams where
  fieldSelector : String
  «namespace» : String
  name : String
  deriving DecidableEq, Repr

/-- `watch.EventType`, as far as it is sent. -/
inductive EventType where
  | added
  | modified
  | deleted
  deriving DecidableEq, Repr

/-- `metav1.WatchEvent`. -/
structure WatchEvent (O : Type) where
  type : EventType
  object : O
  deriving DecidableEq

/-- What the filters read of an object: its metadata and, of a pod, `Spec.NodeName`. -/
structure Fields (O : Type) where
  «namespace» : O → String
  name : O → String
  nodeName : O → String

def objectNameField : String := "metadata.name"

def specNodeNameField : String := "spec.nodeName"

/-! ## The filters -/

/-- Go's `IsFilterFromQueryParams`. -/
def isFilterFromQueryParams (fieldSelector nodeName name : String) : Bool :=
  if fieldSelector = "" then true
  else match split '=' fieldSelector with
    | field :: value :: _ =>
        if field = objectNameField then value == name
        else if field = specNodeNameField then value == nodeName
        else true
    | _ => true

/-- The selector with which a k3s agent watches the endpoints of the master. -/
def kubernetesSelector : String := "metadata.name=kubernetes"

/-- A parameter that is not empty has to be met. -/
def meets (param value : String) : Bool := param == "" || value == param

/-- Go's `checkIsNeedToWatch`. -/
def checkIsNeedToWatch (f : Fields O) (objType : Resource) (p : WatchParams) (obj : O) : Bool :=
  let nodeName := if objType = .pod then f.nodeName obj else ""
  if p.fieldSelector = kubernetesSelector ∧ objType = .endpoint then false
  else if !isFilterFromQueryParams p.fieldSelector nodeName (f.name obj) then false
  else if objType = .node then meets p.name (f.name obj)
  else meets p.namespace (f.namespace obj) && meets p.name (f.name obj)

/-- The loop of a `GetInitWatchEvent` over the stored objects of its type. -/
def initWatchEvents (it : MapOrder String) (s : EdgehubStorage O B) (objType : Resource) (keep : O → Bool) :
    List (WatchEvent O) :=
  ((s.list it objType.name).filter keep).map fun obj => ⟨.added, obj⟩

section Handlers

variable (f : Fields O) (it : MapOrder String) (s : EdgehubStorage O B)

/-- `GetInitWatchEvent` of most types: namespace, name and selector are checked. -/
def namespacedInitWatchEvent (objType : Resource) (nodeName : O → String) (p : WatchParams) :
    List (WatchEvent O) :=
  initWatchEvents it s objType fun obj =>
    meets p.namespace (f.namespace obj) && meets p.name (f.name obj) &&
      isFilterFromQueryParams p.fieldSelector (nodeName obj) (f.name obj)

/-- `GetInitWatchEvent` of nodes and namespaces: the namespace of the request is not read. -/
def unscopedInitWatchEvent (objType : Resource) (p : WatchParams) : List (WatchEvent O) :=
  initWatchEvents it s objType fun obj =>
    meets p.name (f.name obj) && isFilterFromQueryParams p.fieldSelector "" (f.name obj)

/-- `EndpointHandler.GetInitWatchEvent`: a k3s agent does not get the endpoints of the master. -/
def endpointInitWatchEvent (p : WatchParams) : List (WatchEvent O) :=
  if p.namespace = "default" ∧ p.fieldSelector = kubernetesSelector then []
  else namespacedInitWatchEvent f it s .endpoint (fun _ => "") p

/-- `GetInitWatchEvent` of the handler of a type. -/
def getInitWatchEvent : Resource → WatchParams → List (WatchEvent O)
  | .pod => namespacedInitWatchEvent f it s .pod f.nodeName
  | .node => unscopedInitWatchEvent f it s .node
  | .nodeLease => namespacedInitWatchEvent f it s .nodeLease fun _ => ""
  | .endpoint => endpointInitWatchEvent f it s
  | .service => namespacedInitWatchEvent f it s .service fun _ => ""
  | .configMap => namespacedInitWatchEvent f it s .configMap fun _ => ""
  | .secret => namespacedInitWatchEvent f it s .secret fun _ => ""
  | .event => fun _ => []
  | .namespace => unscopedInitWatchEvent f it s .namespace
  | .networkPolicy => namespacedInitWatchEvent f it s .networkPolicy fun _ => ""
  | .csiDriver => namespacedInitWatchEvent f it s .csiDriver fun _ => ""
  | .csiNode => namespacedInitWatchEvent f it s .csiNode fun _ => ""
  | .runtimeClass => namespacedInitWatchEvent f it s .runtimeClass fun _ => ""
  | .tokenReview => fun _ => []
  | .subjectAccessReview => fun _ => []
  | .csr => namespacedInitWatchEvent f it s .csr fun _ => ""

end Handlers

/-- The namespaced types whose handlers send the stored objects first. -/
def Resource.Namespaced : Resource → Prop
  | .pod => True
  | .nodeLease => True
  | .endpoint => True
  | .service => True
  | .configMap => True
  | .secret => True
  | .networkPolicy => True
  | _ => False

/-! ## The two filters compared -/

section Agreement

variable {f : Fields O} {it : MapOrder String} {s : EdgehubStorage O B} {objType : Resource}
  {p : WatchParams} {obj : O}

theorem mem_initWatchEvents {keep : O → Bool} (hobj : obj ∈ s.list it objType.name) :
    (⟨.added, obj⟩ : WatchEvent O) ∈ initWatchEvents it s objType keep ↔ keep obj = true := by
  simp only [initWatchEvents, List.mem_map, List.mem_filter, WatchEvent.mk.injEq, true_and,
    exists_eq_right]
  exact and_iff_right hobj

/-- Namespace, name and selector of the request are met. -/
def Wanted (f : Fields O) (objType : Resource) (p : WatchParams) (obj : O) : Prop :=
  meets p.namespace (f.namespace obj) = true ∧ meets p.name (f.name obj) = true ∧
    isFilterFromQueryParams p.fieldSelector (if objType = .pod then f.nodeName obj else "")
      (f.name obj) = true

theorem mem_namespacedInitWatchEvent {nodeName : O → String}
    (hnode : nodeName obj = if objType = .pod then f.nodeName obj else "")
    (hobj : obj ∈ s.list it objType.name) :
    (⟨.added, obj⟩ : WatchEvent O) ∈ namespacedInitWatchEvent f it s objType nodeName p ↔
      Wanted f objType p obj := by
  rw [namespacedInitWatchEvent, mem_initWatchEvents hobj, hnode, Bool.and_eq_true, Bool.and_eq_true,
    and_assoc, Wanted]

/-- The selector of a k3s agent is about the name alone. -/
theorem wanted_kubernetesSelector (h : p.fieldSelector = kubernetesSelector) :
    Wanted f objType p obj ↔ meets p.namespace (f.namespace obj) = true ∧
      meets p.name (f.name obj) = true ∧ f.name obj = "kubernetes" := by
  have hsplit : split '=' kubernetesSelector = [objectNameField, "kubernetes"] := by decide
  have hne : kubernetesSelector ≠ "" := by decide
  rw [Wanted, h, isFilterFromQueryParams, if_neg hne, hsplit]
  simp only [if_true, beq_iff_eq]
  rw [eq_comm (a := "kubernetes")]

/-- What a live event has to meet, for a type other than nodes. -/
theorem checkIsNeedToWatch_iff (hnode : objType ≠ .node) :
    checkIsNeedToWatch f objType p obj = true ↔
      ¬ (p.fieldSelector = kubernetesSelector ∧ objType = .endpoint) ∧ Wanted f objType p obj := by
  simp only [checkIsNeedToWatch, Wanted, if_neg hnode]
  split
  · rename_i hsel
    simp [hsel]
  · rename_i hsel
    cases isFilterFromQueryParams p.fieldSelector (if objType = .pod then f.nodeName obj else "") (f.name obj)
    · simp
    · simp only [Bool.not_true, Bool.false_eq_true, if_false, Bool.and_eq_true, and_true]
      exact (and_iff_right hsel).symm

/-- The endpoints of the master in a namespace that is not the default one, as a k3s agent asks for
them. -/
def MasterEndpoint (f : Fields O) (objType : Resource) (p : WatchParams) (obj : O) : Prop :=
  objType = .endpoint ∧ p.fieldSelector = kubernetesSelector ∧ p.namespace ≠ "default" ∧
    meets p.namespace (f.namespace obj) = true ∧ meets p.name (f.name obj) = true ∧
    f.name obj = "kubernetes"

/-- For every namespaced type, every stored object and every request: the object gets an initial event
exactly when a live event for it would pass, unless it is the endpoint of the master that a k3s agent asks
for outside the default namespace. -/
theorem initWatchEvent_agrees_iff (f : Fields O) (it : MapOrder String) (s : EdgehubStorage O B)
    {objType : Resource} (htype : objType.Namespaced) (p : WatchParams) {obj : O}
    (hobj : obj ∈ s.list it objType.name) :
    ((⟨.added, obj⟩ : WatchEvent O) ∈ getInitWatchEvent f it s objType p ↔
      checkIsNeedToWatch f objType p obj = true) ↔ ¬ MasterEndpoint f objType p obj := by
  have hnode : objType ≠ .node := by
    rintro rfl
    exact htype
  rw [checkIsNeedToWatch_iff hnode]
  by_cases hend : objType = .endpoint
  · subst hend
    have hstored : (⟨.added, obj⟩ : WatchEvent O) ∈
        namespacedInitWatchEvent f it s .endpoint (fun _ => "") p ↔ Wanted f .endpoint p obj :=
      mem_namespacedInitWatchEvent rfl hobj
    rw [getInitWatchEvent, endpointInitWatchEvent]
    by_cases hsel : p.fieldSelector = kubernetesSelector
    · -- live events never pass, initial ones do outside the default namespace
      by_cases hns : p.namespace = "default"
      · rw [if_pos ⟨hns, hsel⟩]
        simp [hsel, hns, MasterEndpoint]
      · rw [if_neg fun h => hns h.1, hstored, wanted_kubernetesSelector hsel]
        simp [hsel, hns, MasterEndpoint]
    · rw [if_neg fun h => hsel h.2, hstored]
      simp [hsel, MasterEndpoint]
  · have hinit : (⟨.added, obj⟩ : WatchEvent O) ∈ getInitWatchEvent f it s objType p ↔
        Wanted f objType p obj := by
      cases objType <;> first
        | exact mem_namespacedInitWatchEvent rfl hobj
        | exact absurd rfl hend
        | exact absurd htype id
    rw [hinit]
    simp [hend, MasterEndpoint]

/-- Objects that are a namespace, a name and the name of a node. -/
def plainFields : Fields (String × String × String) := ⟨Prod.fst, fun o => o.2.1, fun o => o.2.2⟩

/-- A store with one object of a type. -/
def storeWith (objType : Resource) (key : String) (obj : O) : EdgehubStorage O B :=
  ⟨GoMap.ofList [(objType.name, GoMap.ofList [(key, obj)])], ∅, true⟩

/-- A watch of the endpoints of the master in all namespaces gets the initial event and no live one. -/
theorem master_endpoint_initial_only :
    let obj := ("default", "kubernetes", "")
    let s : EdgehubStorage (String × String × String) Unit := storeWith .endpoint "default/kubernetes" obj
    obj ∈ s.list .sorted Resource.endpoint.name ∧
      ⟨.added, obj⟩ ∈ getInitWatchEvent plainFields .sorted s .endpoint ⟨kubernetesSelector, "", ""⟩ ∧
      checkIsNeedToWatch plainFields .endpoint ⟨kubernetesSelector, "", ""⟩ obj = false := by
  decide

/-- The filters agree on a pod of the node that a kubelet asks for. -/
theorem initWatchEvent_agrees_pod :
    let obj := ("default", "web", "edge-1")
    let s : EdgehubStorage (String × String × String) Unit := storeWith .pod "default/web" obj
    ⟨.added, obj⟩ ∈ getInitWatchEvent plainFields .sorted s .pod ⟨"spec.nodeName=edge-1", "", ""⟩ ↔
      checkIsNeedToWatch plainFields .pod ⟨"spec.nodeName=edge-1", "", ""⟩ obj = true := by
  have htype : Resource.pod.Namespaced := trivial
  refine (initWatchEvent_agrees_iff plainFields .sorted _ htype _ (by decide)).mpr ?_
  rintro ⟨h, -⟩
  cases h

end Agreement

end OteStack.EdgeHub
