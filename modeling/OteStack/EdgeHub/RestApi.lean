/-
# OteStack.EdgeHub.RestApi — the API that a hub serves on its node.

`pkg/server/handler` and the handlers of the resource types (`pkg/server/apiv1`, `pkg/server/apis*`).  A
request goes to the handler of its resource; writes are passed to the master while that is reachable, and
answered from the local store otherwise.  Reads are always answered from the store.

Offline the hub is a keyed store, and a restart is one of its operations (`offline_api_refines_store`): every
answer is one that `ObjectStore` gives, objects under their type and key.  What is not that of a plain map is
which objects are visible: those of types that have an indexer, and a restart gives one to exactly
the types that have an object.

The handlers of ConfigMaps and Secrets create objects under the empty key.  They are left out here; see
`OteStack.EdgeHub.KeylessCreate`.
-/
import OteStack.EdgeHub.Restart
import OteStack.EdgeHub.WatchFilter

namespace OteStack.EdgeHub

open OteStack.Lib (GoMap MapOrder)

variable {O B : Type}

/-! ## Responses -/

/-- The errors of responses; the last two are those of `apierrors`. -/
inductive ApiError where
  | text (message : String)
  | alreadyExists (key : String)
  | notFound (key : String)
  deriving DecidableEq, Repr

/-- `handler.Response`; a code that is not set is 0. -/
structure Response (B : Type) where
  code : ℕ
  err : Option ApiError
  body : Option B
  deriving DecidableEq

/-- What is written to the client; a request without a route is refused by `go-restful` itself. -/
inductive HttpAnswer (B : Type) where
  | body (data : Option B)
  | error (code : ℕ) (err : ApiError)
  | noRoute
  deriving DecidableEq

/-- Go's `CheckResponseCode`. -/
def checkResponseCode (code : ℕ) : Bool := !(decide (code < 100) || decide (999 < code))

/-- What the handlers of all requests do with a response. -/
def Response.write (result : Response B) : HttpAnswer B :=
  match result.err with
  | some err => .error (if checkResponseCode result.code then result.code else 500) err
  | none => .body result.body

/-- The head of a list. -/
structure ListHead where
  kind : String
  apiVersion : String
  selfLink : String
  resourceVersion : String
  deriving DecidableEq, Repr

/-- `encoding/json` for lists as well; `handleK3sGetEndpoint` rewrites the bytes of an endpoint. -/
structure ApiCodec (O B : Type) extends Codec O B where
  fields : Fields O
  marshalList : ListHead → List O → Except String B
  emptyText : B
  handleK3sGetEndpoint : B → Option B

/-! ## Requests -/

/-- The parts of a request that its route and its handler read.  A body may fail to be read; a namespace that is
not in the path is empty.  The path of a patch may end in `status`. -/
inductive ApiRequest (B : Type) where
  | create (body : Except String B)
  | delete (ns name : String) (body : Except String B)
  | list (ns fieldSelector uri : String)
  | get (ns name requestURI : String)
  | updatePut (ns name : String) (body : Except String B)
  | updatePatch (ns name : String) (status : Bool) (body : Except String B)

/-- The web services, by the path that they serve. -/
inductive ApiGroup where
  | apiv1
  | apisauthentication
  | apisauthorization
  | apiscertificates
  | apiscoordination
  | apisnetworking
  | apisnode
  | apisstorage
  deriving DecidableEq, Repr

/-- The resources in the map `ServerHandler` of a service. -/
def ApiGroup.resources : ApiGroup → List Resource
  | apiv1 => [.pod, .node, .service, .endpoint, .configMap, .secret, .event, .namespace]
  | apisauthentication => [.tokenReview]
  | apisauthorization => [.subjectAccessReview]
  | apiscertificates => [.csr]
  | apiscoordination => [.nodeLease]
  | apisnetworking => [.networkPolicy]
  | apisnode => [.runtimeClass]
  | apisstorage => [.csiDriver, .csiNode]

/-- The handler of a resource. -/
def ApiGroup.serverHandler (g : ApiGroup) (resource : String) : Option Resource :=
  g.resources.find? fun r => r.name == resource

/-- The services that call `RegisterCreateHandler` only. -/
def ApiGroup.createOnly : ApiGroup → Bool
  | apisauthentication => true
  | apisauthorization => true
  | _ => false

/-- Whether a service has a route for a request: what its `NewWebsService` registers, and the paths that the
four register functions give to each method. -/
def ApiGroup.routes (g : ApiGroup) : ApiRequest B → Bool
  | .create _ => true
  | .delete ns _ _ => !g.createOnly && decide (ns ≠ "")
  | .list _ _ _ => !g.createOnly
  | .get _ _ _ => !g.createOnly
  | .updatePut _ _ _ => !g.createOnly
  | .updatePatch ns _ status _ => !g.createOnly && (decide (ns ≠ "") || status)

/-- Go's `util.FormKeyName`. -/
def utilFormKeyName (ns name : String) : String := if ns = "" then name else ns ++ "/" ++ name

/-- The interface `Handler`, for all resources: what a call answers and what it leaves. -/
structure Handlers (σ B : Type) where
  create : Resource → B → σ → Response B × σ
  delete : Resource → String → σ → Response B × σ
  list : Resource → (fieldSelector ns uri : String) → σ → Response B
  get : Resource → String → σ → Response B
  updatePut : Resource → String → B → σ → Response B × σ
  updatePatch : Resource → String → B → σ → Response B × σ

/-- The URI of the endpoints that a k3s agent asks for. -/
def kubernetesEndpointURI : String := "/api/v1/namespaces/default/endpoints/kubernetes"

section Serve

variable {σ : Type} (h : Handlers σ B) (handleK3sGetEndpoint : B → Option B) (g : ApiGroup) (s : σ)

/-- A body that cannot be read is answered with 400. -/
def withBody (body : Except String B) (k : B → HttpAnswer B × σ) : HttpAnswer B × σ :=
  match body with
  | .error err => (.error 400 (.text err), s)
  | .ok data => k data

/-- So is a resource without a handler. -/
def withHandler (operation resource : String) (k : Resource → Response B × σ) : HttpAnswer B × σ :=
  match g.serverHandler resource with
  | none => (.error 400 (.text ("unsupport resource in " ++ operation ++ " operation.")), s)
  | some r => ((k r).1.write, (k r).2)

/-- What `getHandler` makes of the response: the endpoints for a k3s agent are rewritten. -/
def rewriteEndpoint (requestURI : String) (result : Response B) : Response B :=
  if result.err = none ∧ requestURI = kubernetesEndpointURI then
    { result with body := result.body.bind handleK3sGetEndpoint }
  else result

/-- Go's `createHandler`, `deleteHandler`, `listHandler`, `getHandler`, `updatePutHandler` and
`updatePatchHandler`. -/
def handle (resource : String) : ApiRequest B → HttpAnswer B × σ
  | .create body => withBody s body fun data =>
      -- the text is that of a delete in the source, too
      withHandler g s "delete" resource fun r => h.create r data s
  | .delete ns name body => withBody s body fun _ =>
      withHandler g s "delete" resource fun r => h.delete r (utilFormKeyName ns name) s
  | .list ns fieldSelector uri =>
      withHandler g s "list" resource fun r => (h.list r fieldSelector ns uri s, s)
  | .get ns name requestURI => withHandler g s "get" resource fun r =>
      (rewriteEndpoint handleK3sGetEndpoint requestURI (h.get r (utilFormKeyName ns name) s), s)
  | .updatePut ns name body => withBody s body fun data =>
      withHandler g s "put" resource fun r => h.updatePut r (utilFormKeyName ns name) data s
  | .updatePatch ns name _ body => withBody s body fun data =>
      withHandler g s "patch" resource fun r => h.updatePatch r (utilFormKeyName ns name) data s

/-- A request at a service. -/
def serve (resource : String) (req : ApiRequest B) : HttpAnswer B × σ :=
  if g.routes req then handle h handleK3sGetEndpoint g s resource req else (.noRoute, s)

end Serve

/-! ## The handlers of the hub -/

/-- `HandlerContext`, as far as the handlers use it: the store, and the flag of the load balancer. -/
structure HandlerContext (O B : Type) where
  store : EdgehubStorage O B
  isRemoteEnable : Bool

/-- What the master answers to a request: the body, or a code and an error. -/
abbrev MasterAnswer (B : Type) := Except (ℕ × String) B

/-- The response to a request that was passed to the master. -/
def MasterAnswer.response : MasterAnswer B → Response B
  | .error (code, err) => ⟨code, some (.text err), none⟩
  | .ok raw => ⟨0, none, some raw⟩

/-- The type assertion `data.([]byte)`, for what `Get` gives when it serializes. -/
def Item.bytes : Item O B → Option B
  | .data bytes => some bytes
  | .object _ => none

section Do

variable (c : ApiCodec O B) (answer : MasterAnswer B) (ctx : HandlerContext O B)

/-- Go's `DoCreate`. -/
def doCreate (objType key : String) (body : B) : Response B × HandlerContext O B :=
  if ctx.isRemoteEnable then (answer.response, ctx)
  else match ctx.store.get c.toCodec objType key false with
    | .ok _ => (⟨409, some (.alreadyExists key), none⟩, ctx)
    | .error _ =>
        (⟨0, none, some body⟩, { ctx with store := ctx.store.update c.toCodec objType key body })

/-- Go's `DoUpdatePut`. -/
def doUpdatePut (objType key : String) (body : B) : Response B × HandlerContext O B :=
  if ctx.isRemoteEnable then (answer.response, ctx)
  else (⟨0, none, some body⟩, { ctx with store := ctx.store.update c.toCodec objType key body })

/-- Go's `DoUpdatePatch`: offline the patch is not applied. -/
def doUpdatePatch (objType key : String) : Response B × HandlerContext O B :=
  if ctx.isRemoteEnable then (answer.response, ctx)
  else match ctx.store.get c.toCodec objType key true with
    | .ok item => (⟨0, none, item.bytes⟩, ctx)
    | .error err => (⟨500, some (.text err), none⟩, ctx)

/-- Go's `DoDelete`. -/
def doDelete (objType key : String) : Response B × HandlerContext O B :=
  if ctx.isRemoteEnable then (answer.response, ctx)
  else (⟨200, none, none⟩, { ctx with store := ctx.store.delete c.toCodec objType key })

/-- Go's `DoGet`. -/
def doGet (objType key : String) : Response B :=
  match ctx.store.get c.toCodec objType key true with
  | .ok item => ⟨0, none, item.bytes⟩
  | .error _ => ⟨404, some (.notFound key), none⟩

/-- `Create` of most types: the key is that of the object in the body. -/
def createDecoded (objType : Resource) (body : B) : Response B × HandlerContext O B :=
  match getObjectFromSerializeData c.toCodec objType.name body with
  | .error err => (⟨400, some (.text err), none⟩, ctx)
  | .ok obj => doCreate c answer ctx objType.name (c.metaNamespaceKey obj) body

/-- `Create` of ConfigMaps and Secrets: the body is not looked at, and the key is empty. -/
def createKeyless (objType : Resource) (body : B) : Response B × HandlerContext O B :=
  doCreate c answer ctx objType.name "" body

/-- `Create` of the handler of a type. -/
def create : Resource → B → Response B × HandlerContext O B
  | .pod => createDecoded c answer ctx .pod
  | .node => createDecoded c answer ctx .node
  | .nodeLease => createDecoded c answer ctx .nodeLease
  | .endpoint => createDecoded c answer ctx .endpoint
  | .service => createDecoded c answer ctx .service
  | .configMap => createKeyless c answer ctx .configMap
  | .secret => createKeyless c answer ctx .secret
  | .event => createDecoded c answer ctx .event
  | .namespace => createDecoded c answer ctx .namespace
  | .networkPolicy => createDecoded c answer ctx .networkPolicy
  | .csiDriver => createDecoded c answer ctx .csiDriver
  | .csiNode => createDecoded c answer ctx .csiNode
  | .runtimeClass => createDecoded c answer ctx .runtimeClass
  | .tokenReview => createDecoded c answer ctx .tokenReview
  | .subjectAccessReview => createDecoded c answer ctx .subjectAccessReview
  | .csr => createDecoded c answer ctx .csr

end Do

section ListHandlers

variable (c : ApiCodec O B)

/-- The response with a list of objects. -/
def listResponse (head : ListHead) (objs : List O) : Response B :=
  match c.marshalList head objs with
  | .error err => ⟨500, some (.text err), none⟩
  | .ok data => ⟨0, none, some data⟩

/-- `List` of most types, over the stored objects: namespace and selector are checked. -/
def listNamespaced (kind apiVersion resourceVersion : String) (nodeName : O → String) (objs : List O)
    (fieldSelector ns uri : String) : Response B :=
  listResponse c ⟨kind, apiVersion, uri, resourceVersion⟩ <| objs.filter fun obj =>
    meets ns (c.fields.namespace obj) &&
      isFilterFromQueryParams fieldSelector (nodeName obj) (c.fields.name obj)

/-- `List` of nodes and namespaces: the namespace of the request is not read. -/
def listUnscoped (kind apiVersion : String) (objs : List O) (fieldSelector uri : String) : Response B :=
  listResponse c ⟨kind, apiVersion, uri, ""⟩ <| objs.filter fun obj =>
    isFilterFromQueryParams fieldSelector "" (c.fields.name obj)

/-- `List` of the handler of a type, over the objects that `Store.List` gives. -/
def listObjects (objs : List O) (fieldSelector ns uri : String) : Resource → Response B
  | .pod => listNamespaced c "PodList" "v1" "" c.fields.nodeName objs fieldSelector ns uri
  | .node => listUnscoped c "NodeList" "v1" objs fieldSelector uri
  | .nodeLease =>
      listNamespaced c "LeaseList" "coordination.k8s.io/v1" "" (fun _ => "") objs fieldSelector ns uri
  | .endpoint => listNamespaced c "EndpointsList" "v1" "" (fun _ => "") objs fieldSelector ns uri
  | .service => listNamespaced c "ServiceList" "v1" "" (fun _ => "") objs fieldSelector ns uri
  | .configMap => listNamespaced c "ConfigMapList" "v1" "1" (fun _ => "") objs fieldSelector ns uri
  | .secret => listNamespaced c "SecretList" "v1" "1" (fun _ => "") objs fieldSelector ns uri
  | .event => ⟨0, none, some c.emptyText⟩
  | .namespace => listUnscoped c "NamespaceList" "v1" objs fieldSelector uri
  | .networkPolicy =>
      listNamespaced c "NetworkPolicyList" "networking.k8s.io/v1" "" (fun _ => "") objs fieldSelector ns uri
  | .csiDriver =>
      listNamespaced c "CSIDriverList" "storage.k8s.io/v1beta1" "" (fun _ => "") objs fieldSelector ns uri
  | .csiNode =>
      listNamespaced c "CSINodeList" "storage.k8s.io/v1" "" (fun _ => "") objs fieldSelector ns uri
  | .runtimeClass =>
      listNamespaced c "RuntimeClassList" "node.k8s.io/v1beta1" "" (fun _ => "") objs fieldSelector ns uri
  | .tokenReview => ⟨500, none, none⟩
  | .subjectAccessReview => ⟨200, none, none⟩
  | .csr => listNamespaced c "CertificateSigningRequestList" "certificates.k8s.io/v1beta1" "" (fun _ => "")
      objs fieldSelector ns uri

end ListHandlers

/-- The handlers of the hub; `answer` is what the master says to the request, if it is asked. -/
def hubHandlers (c : ApiCodec O B) (it : MapOrder String) (answer : MasterAnswer B) :
    Handlers (HandlerContext O B) B where
  create r body ctx := create c answer ctx r body
  delete r key ctx := doDelete c answer ctx r.name key
  list r fieldSelector ns uri ctx := listObjects c (ctx.store.list it r.name) fieldSelector ns uri r
  get r key ctx := doGet c ctx r.name key
  updatePut r key body ctx := doUpdatePut c answer ctx r.name key body
  updatePatch r key _ ctx := doUpdatePatch c answer ctx r.name key

/-! ## A keyed store -/

/-- Objects under their type and key, and the types whose objects are visible. -/
structure ObjectStore (O : Type) where
  objects : Resource → String → Option O
  listed : Resource → Prop

namespace ObjectStore

/-- The object of a type and a key is set, or removed. -/
def assign (a : ObjectStore O) (r : Resource) (key : String) (obj : Option O) : ObjectStore O where
  objects r' key' := if r' = r ∧ key' = key then obj else a.objects r' key'
  listed := a.listed

/-- The visible types after a restart are those with an object. -/
def restart (a : ObjectStore O) : ObjectStore O where
  objects := a.objects
  listed r := ∃ key, (a.objects r key).isSome = true

open Classical in
/-- Look up a visible object. -/
noncomputable def find (a : ObjectStore O) (r : Resource) (key : String) : Except String O :=
  if a.listed r then
    match a.objects r key with
    | some obj => .ok obj
    | none => .error ("get " ++ r.name ++ "-" ++ key ++ " obj failed: obj is not found")
  else .error ("get " ++ r.name ++ "-" ++ key ++ " obj failed: couldn't find object type indexer")

/-- Look it up and encode it. -/
noncomputable def read (c : Codec O B) (a : ObjectStore O) (r : Resource) (key : String) : Except String B :=
  match a.find r key with
  | .ok obj =>
      match c.marshal obj with
      | .ok data => .ok data
      | .error err => .error ("get " ++ r.name ++ "-" ++ key ++ " obj failed: " ++ err)
  | .error err => .error err

/-- The keys list the visible objects of each type, each once. -/
structure Enumerates (a : ObjectStore O) (keys : Resource → List String) : Prop where
  nodup : ∀ r, (keys r).Nodup
  complete : ∀ r key, key ∈ keys r ↔ a.listed r ∧ (a.objects r key).isSome = true

/-- The handlers of a keyed store; objects are listed in the order of the keys. -/
noncomputable def handlers (c : ApiCodec O B) (keys : Resource → List String) :
    Handlers (ObjectStore O) B where
  create r body a :=
    match getObjectFromSerializeData c.toCodec r.name body with
    | .error err => (⟨400, some (.text err), none⟩, a)
    | .ok obj =>
        match a.find r (c.metaNamespaceKey obj) with
        | .ok _ => (⟨409, some (.alreadyExists (c.metaNamespaceKey obj)), none⟩, a)
        | .error _ => (⟨0, none, some body⟩, a.assign r (c.metaNamespaceKey obj) (some obj))
  delete r key a := (⟨200, none, none⟩, a.assign r key none)
  list r fieldSelector ns uri a := listObjects c ((keys r).filterMap (a.objects r)) fieldSelector ns uri r
  get r key a :=
    match a.read c.toCodec r key with
    | .ok data => ⟨0, none, some data⟩
    | .error _ => ⟨404, some (.notFound key), none⟩
  updatePut r key body a :=
    (⟨0, none, some body⟩, a.assign r key (c.unmarshal r body).toOption)
  updatePatch r key _ a :=
    match a.read c.toCodec r key with
    | .ok data => (⟨0, none, some data⟩, a)
    | .error err => (⟨500, some (.text err), none⟩, a)

end ObjectStore

/-! ## Runs -/

/-- A hub without the master is asked, or it restarts.  The request comes with the order in which maps are
ranged over and with what the master would answer. -/
inductive HubAction (B : Type) where
  | request (g : ApiGroup) (resource : String) (req : ApiRequest B) (it : MapOrder String)
      (answer : MasterAnswer B)
  | restart

/-- A restart, with nothing heard of the master. -/
def HandlerContext.restart (c : ApiCodec O B) (ctx : HandlerContext O B) : HandlerContext O B :=
  ⟨newEdgehubStore c.toCodec ctx.store.levelDB, false⟩

/-- The answers to the requests of a run, and where it ends. -/
def runApi (c : ApiCodec O B) : HandlerContext O B → List (HubAction B) →
    List (HttpAnswer B) × HandlerContext O B
  | ctx, [] => ([], ctx)
  | ctx, .restart :: as => runApi c (ctx.restart c) as
  | ctx, .request g resource req it answer :: as =>
      let served := serve (hubHandlers c it answer) c.handleK3sGetEndpoint g ctx resource req
      let rest := runApi c served.2 as
      (served.1 :: rest.1, rest.2)

/-- The runs of a keyed store. -/
inductive ObjectStore.Runs (c : ApiCodec O B) :
    ObjectStore O → List (HubAction B) → List (HttpAnswer B) → ObjectStore O → Prop
  | nil (a : ObjectStore O) : Runs c a [] [] a
  | restart {a a' : ObjectStore O} {as : List (HubAction B)} {answers : List (HttpAnswer B)}
      (rest : Runs c a.restart as answers a') : Runs c a (.restart :: as) answers a'
  | request {a a' a'' : ObjectStore O} {as : List (HubAction B)} {answers : List (HttpAnswer B)}
      {keys : Resource → List String} {g : ApiGroup} {resource : String} {req : ApiRequest B}
      {it : MapOrder String} {answer : MasterAnswer B} {ans : HttpAnswer B} (hkeys : a.Enumerates keys)
      (hserve : serve (handlers c keys) c.handleK3sGetEndpoint g a resource req = (ans, a'))
      (rest : Runs c a' as answers a'') :
      Runs c a (.request g resource req it answer :: as) (ans :: answers) a''

/-- The request is neither a creation without a key nor an update whose body is another object than its path
names. -/
def WellAddressed (c : ApiCodec O B) : HubAction B → Prop
  | .restart => True
  | .request g resource (.create _) _ _ =>
      ∀ r, g.serverHandler resource = some r → r ≠ .configMap ∧ r ≠ .secret
  | .request g resource (.updatePut ns name body) _ _ =>
      ∀ r data, g.serverHandler resource = some r → body = .ok data →
        ∃ obj, c.unmarshal r data = .ok obj ∧ c.metaNamespaceKey obj = utilFormKeyName ns name
  | .request _ _ _ _ _ => True

/-! ## Refinement -/

/-- An offline hub whose indexers and database hold the objects of the store. -/
structure Refines (c : ApiCodec O B) (a : ObjectStore O) (ctx : HandlerContext O B) : Prop where
  offline : ctx.isRemoteEnable = false
  mirrors : Mirrors c.toCodec a.listed ctx.store
  objects : ∀ r key, a.objects r key = decoded c.toCodec ctx.store.levelDB r key

section Refinement

variable {c : ApiCodec O B} {a : ObjectStore O} {ctx : HandlerContext O B}

theorem Refines.not_remote (h : Refines c a ctx) : ¬ ctx.isRemoteEnable = true := by
  rw [h.offline]
  decide

/-- A lookup in the hub is one in the store. -/
theorem Refines.get (h : Refines c a ctx) (r : Resource) (key : String) :
    ctx.store.get c.toCodec r.name key false = (a.find r key).map Item.object := by
  unfold EdgehubStorage.get ObjectStore.find
  cases hix : ctx.store.cache.get r.name with
  | none =>
      have hlisted : ¬ a.listed r := by
        rw [← h.mirrors.types r, hix]
        simp
      rw [if_neg hlisted]
      rfl
  | some ix =>
      have hlisted : a.listed r := by
        rw [← h.mirrors.types r, hix]
        simp
      rw [if_pos hlisted, h.objects, ← h.mirrors.objects r ix hix key]
      dsimp only
      cases ix.get key with
      | none => rfl
      | some obj => rfl

/-- `Get` finds the same object whether it encodes it or not. -/
theorem get_serialized (c : Codec O B) (s : EdgehubStorage O B) (objType key : String) :
    s.get c objType key true =
      match s.get c objType key false with
      | .error err => .error err
      | .ok (.data data) => .ok (.data data)
      | .ok (.object obj) =>
          match c.marshal obj with
          | .ok data => .ok (.data data)
          | .error err => .error ("get " ++ objType ++ "-" ++ key ++ " obj failed: " ++ err) := by
  unfold EdgehubStorage.get
  cases s.cache.get objType with
  | none => rfl
  | some ix =>
      dsimp only
      cases ix.get key with
      | none => rfl
      | some obj => rfl

/-- A lookup that encodes what it finds is one in the store, too. -/
theorem Refines.get_bytes (h : Refines c a ctx) (r : Resource) (key : String) :
    ctx.store.get c.toCodec r.name key true = (a.read c.toCodec r key).map Item.data := by
  rw [get_serialized, h.get, ObjectStore.read]
  cases a.find r key with
  | error err => rfl
  | ok obj =>
      simp only [Except.map]
      cases c.marshal obj with
      | ok data => rfl
      | error err => rfl

theorem Refines.update (h : Refines c a ctx) {r : Resource} {data : B} {obj : O}
    (hobj : c.unmarshal r data = .ok obj) :
    Refines c (a.assign r (c.metaNamespaceKey obj) (some obj))
      { ctx with store := ctx.store.update c.toCodec r.name (c.metaNamespaceKey obj) data } := by
  refine ⟨h.offline, mirrors_update h.mirrors hobj, ?_⟩
  intro r' key'
  refine Eq.trans ?_ (decoded_update hobj r' key').symm
  rw [← h.objects]
  rfl

theorem Refines.delete (h : Refines c a ctx) (r : Resource) (key : String) :
    Refines c (a.assign r key none)
      { ctx with store := ctx.store.delete c.toCodec r.name key } := by
  refine ⟨h.offline, mirrors_delete h.mirrors r key, ?_⟩
  intro r' key'
  refine Eq.trans ?_ (decoded_delete r key r' key').symm
  rw [← h.objects]
  rfl

/-- A restart gives an indexer to the types that have an object. -/
theorem Refines.restart (h : Refines c a ctx) : Refines c a.restart (ctx.restart c) := by
  have hlisted : a.restart.listed = HasEntry ctx.store.levelDB := by
    funext r
    refine propext (exists_congr fun key => ?_)
    rw [h.objects, h.mirrors.wellStored.isSome_decoded]
  refine ⟨rfl, ?_, h.objects⟩
  rw [hlisted]
  exact mirrors_newEdgehubStore h.mirrors.wellStored

/-- The keys over which an indexer ranges. -/
def rangedKeys (it : MapOrder String) (s : EdgehubStorage O B) (r : Resource) : List String :=
  match s.cache.get r.name with
  | none => []
  | some ix => it.order ix

theorem Refines.enumerates (h : Refines c a ctx) (it : MapOrder String) :
    a.Enumerates (rangedKeys it ctx.store) := by
  refine ⟨?_, ?_⟩
  · intro r
    unfold rangedKeys
    cases ctx.store.cache.get r.name with
    | none => exact List.nodup_nil
    | some ix => exact it.nodup ix
  · intro r key
    rw [← h.mirrors.types r, rangedKeys]
    cases hix : ctx.store.cache.get r.name with
    | none => simp
    | some ix =>
        rw [it.mem_order, GoMap.mem_keys, h.objects, ← h.mirrors.objects r ix hix key,
          Option.isSome_iff_exists]
        simp

theorem Refines.list (h : Refines c a ctx) (it : MapOrder String) (r : Resource) :
    ctx.store.list it r.name = (rangedKeys it ctx.store r).filterMap (a.objects r) := by
  unfold EdgehubStorage.list rangedKeys
  cases hix : ctx.store.cache.get r.name with
  | none => rfl
  | some ix =>
      refine congrArg (fun f => (it.order ix).filterMap f) (funext fun key => ?_)
      rw [h.objects, h.mirrors.objects r ix hix key]

/-! ### One request -/

theorem unmarshal_of_getObject {c : Codec O B} {r : Resource} {data : B} {obj : O}
    (h : getObjectFromSerializeData c r.name data = .ok obj) : c.unmarshal r data = .ok obj := by
  rw [getObjectFromSerializeData, Resource.ofName_name] at h
  dsimp only at h
  cases hobj : c.unmarshal r data with
  | error err => rw [hobj] at h; cases h
  | ok obj' => rw [hobj] at h; exact h

/-- The same response, and states that are related. -/
def Agrees (c : ApiCodec O B) (x : Response B × ObjectStore O) (y : Response B × HandlerContext O B) : Prop :=
  x.1 = y.1 ∧ Refines c x.2 y.2

theorem agrees_create {it : MapOrder String} {answer : MasterAnswer B} {keys : Resource → List String}
    (h : Refines c a ctx) {r : Resource} (hr : r ≠ .configMap ∧ r ≠ .secret) (body : B) :
    Agrees c ((ObjectStore.handlers c keys).create r body a) ((hubHandlers c it answer).create r body ctx) := by
  have hdecoded : create c answer ctx r body = createDecoded c answer ctx r body := by
    cases r with
    | configMap => exact absurd rfl hr.1
    | secret => exact absurd rfl hr.2
    | _ => rfl
  show Agrees c ((ObjectStore.handlers c keys).create r body a) (create c answer ctx r body)
  rw [hdecoded]
  unfold createDecoded ObjectStore.handlers
  dsimp only
  cases hobj : getObjectFromSerializeData c.toCodec r.name body with
  | error err => exact ⟨rfl, h⟩
  | ok obj =>
      dsimp only
      rw [doCreate, if_neg h.not_remote, h.get]
      cases a.find r (c.metaNamespaceKey obj) with
      | ok found => exact ⟨rfl, h⟩
      | error err => exact ⟨rfl, h.update (unmarshal_of_getObject hobj)⟩

theorem agrees_updatePut {it : MapOrder String} {answer : MasterAnswer B} {keys : Resource → List String}
    (h : Refines c a ctx) {r : Resource} {body : B} {obj : O} (hobj : c.unmarshal r body = .ok obj) :
    Agrees c ((ObjectStore.handlers c keys).updatePut r (c.metaNamespaceKey obj) body a)
      ((hubHandlers c it answer).updatePut r (c.metaNamespaceKey obj) body ctx) := by
  show Agrees c _ (doUpdatePut c answer ctx r.name (c.metaNamespaceKey obj) body)
  rw [doUpdatePut, if_neg h.not_remote]
  refine ⟨rfl, ?_⟩
  show Refines c (a.assign r _ (c.unmarshal r body).toOption) _
  rw [hobj]
  exact h.update hobj

theorem agrees_updatePatch {it : MapOrder String} {answer : MasterAnswer B} {keys : Resource → List String}
    (h : Refines c a ctx) (r : Resource) (key : String) (body : B) :
    Agrees c ((ObjectStore.handlers c keys).updatePatch r key body a)
      ((hubHandlers c it answer).updatePatch r key body ctx) := by
  show Agrees c _ (doUpdatePatch c answer ctx r.name key)
  rw [doUpdatePatch, if_neg h.not_remote, h.get_bytes]
  unfold ObjectStore.handlers
  dsimp only
  cases a.read c.toCodec r key with
  | ok data => exact ⟨rfl, h⟩
  | error err => exact ⟨rfl, h⟩

theorem agrees_delete {it : MapOrder String} {answer : MasterAnswer B} {keys : Resource → List String}
    (h : Refines c a ctx) (r : Resource) (key : String) :
    Agrees c ((ObjectStore.handlers c keys).delete r key a) ((hubHandlers c it answer).delete r key ctx) := by
  show Agrees c _ (doDelete c answer ctx r.name key)
  rw [doDelete, if_neg h.not_remote]
  exact ⟨rfl, h.delete r key⟩

theorem get_eq {it : MapOrder String} {answer : MasterAnswer B} {keys : Resource → List String}
    (h : Refines c a ctx) (r : Resource) (key : String) :
    (ObjectStore.handlers c keys).get r key a = (hubHandlers c it answer).get r key ctx := by
  show _ = doGet c ctx r.name key
  rw [doGet, h.get_bytes]
  unfold ObjectStore.handlers
  dsimp only
  cases a.read c.toCodec r key with
  | ok data => rfl
  | error err => rfl

/-- The wrappers of the handlers keep the relation. -/
theorem withHandler_refines (h : Refines c a ctx) (g : ApiGroup) (operation resource : String)
    {k : Resource → Response B × ObjectStore O} {k' : Resource → Response B × HandlerContext O B}
    (hk : ∀ r, g.serverHandler resource = some r → Agrees c (k r) (k' r)) :
    (withHandler g a operation resource k).1 = (withHandler g ctx operation resource k').1 ∧
      Refines c (withHandler g a operation resource k).2 (withHandler g ctx operation resource k').2 := by
  unfold withHandler
  cases hr : g.serverHandler resource with
  | none => exact ⟨rfl, h⟩
  | some r =>
      obtain ⟨hresp, hstate⟩ := hk r hr
      exact ⟨by simp only [hresp], hstate⟩

theorem withBody_refines (h : Refines c a ctx) (body : Except String B)
    {k : B → HttpAnswer B × ObjectStore O} {k' : B → HttpAnswer B × HandlerContext O B}
    (hk : ∀ data, body = .ok data → (k data).1 = (k' data).1 ∧ Refines c (k data).2 (k' data).2) :
    (withBody a body k).1 = (withBody ctx body k').1 ∧
      Refines c (withBody a body k).2 (withBody ctx body k').2 := by
  unfold withBody
  cases body with
  | error err => exact ⟨rfl, h⟩
  | ok data => exact hk data rfl

/-- One call of a handler. -/
theorem handle_refines (h : Refines c a ctx) (g : ApiGroup) (resource : String) (req : ApiRequest B)
    (it : MapOrder String) (answer : MasterAnswer B)
    (hreq : WellAddressed c (.request g resource req it answer)) :
    let abstract := handle (ObjectStore.handlers c (rangedKeys it ctx.store)) c.handleK3sGetEndpoint g a
      resource req
    let handled := handle (hubHandlers c it answer) c.handleK3sGetEndpoint g ctx resource req
    abstract.1 = handled.1 ∧ Refines c abstract.2 handled.2 := by
  cases req with
  | create body =>
      exact withBody_refines h body fun data _ =>
        withHandler_refines h g _ resource fun r hr => agrees_create h (hreq r hr) data
  | delete ns name body =>
      exact withBody_refines h body fun _ _ =>
        withHandler_refines h g _ resource fun r _ => agrees_delete h r _
  | list ns fieldSelector uri =>
      refine withHandler_refines h g _ resource fun r _ => ⟨?_, h⟩
      show listObjects c _ fieldSelector ns uri r = listObjects c _ fieldSelector ns uri r
      rw [h.list it r]
  | get ns name requestURI =>
      exact withHandler_refines h g _ resource fun r _ => ⟨by rw [get_eq h], h⟩
  | updatePut ns name body =>
      refine withBody_refines h body fun data hdata => withHandler_refines h g _ resource fun r hr => ?_
      obtain ⟨obj, hobj, hkey⟩ := hreq r data hr hdata
      rw [← hkey]
      exact agrees_updatePut h hobj
  | updatePatch ns name status body =>
      exact withBody_refines h body fun data _ =>
        withHandler_refines h g _ resource fun r _ => agrees_updatePatch h r _ data

/-- One request. -/
theorem serve_refines (h : Refines c a ctx) (g : ApiGroup) (resource : String) (req : ApiRequest B)
    (it : MapOrder String) (answer : MasterAnswer B)
    (hreq : WellAddressed c (.request g resource req it answer)) :
    let abstract := serve (ObjectStore.handlers c (rangedKeys it ctx.store)) c.handleK3sGetEndpoint g a
      resource req
    let served := serve (hubHandlers c it answer) c.handleK3sGetEndpoint g ctx resource req
    abstract.1 = served.1 ∧ Refines c abstract.2 served.2 := by
  dsimp only
  unfold serve
  split
  · exact handle_refines h g resource req it answer hreq
  · exact ⟨rfl, h⟩

end Refinement

/-- Every run of requests and restarts of an offline hub, in which bodies are the objects that the paths name
and no ConfigMap or Secret is created, is a run of a keyed store: the same answers, and the hub holds the
objects of the store in the end. -/
theorem offline_api_refines_store (c : ApiCodec O B) {a : ObjectStore O} {ctx : HandlerContext O B}
    (h : Refines c a ctx) (as : List (HubAction B)) (has : ∀ action ∈ as, WellAddressed c action) :
    ∃ a', a.Runs c as (runApi c ctx as).1 a' ∧ Refines c a' (runApi c ctx as).2 := by
  induction as generalizing a ctx with
  | nil => exact ⟨a, .nil a, h⟩
  | cons action as ih =>
      have hrest : ∀ action ∈ as, WellAddressed c action := fun b hb => has b (List.mem_cons_of_mem _ hb)
      cases action with
      | restart =>
          obtain ⟨a', hruns, hend⟩ := ih h.restart hrest
          exact ⟨a', .restart hruns, hend⟩
      | request g resource req it answer =>
          obtain ⟨hans, hnext⟩ := serve_refines h g resource req it answer (has _ List.mem_cons_self)
          obtain ⟨a', hruns, hend⟩ := ih hnext hrest
          refine ⟨a', ?_, hend⟩
          rw [runApi]
          exact .request (h.enumerates it) (Prod.ext hans rfl) hruns

/-! ## A node with one pod -/

/-- Objects that are a key and a text, and encode as themselves. -/
def plainApi : ApiCodec (String × String) (String × String) where
  toCodec := plainCodec
  fields := ⟨fun _ => "ns", Prod.fst, fun _ => ""⟩
  marshalList := fun head objs => .ok (head.kind, toString (objs.map Prod.fst))
  emptyText := ("", "")
  handleK3sGetEndpoint := some

/-- A node that has the pod `ns/web`, without the master. -/
def webContext : HandlerContext (String × String) (String × String) :=
  ⟨newEdgehubStore plainCodec webDB, false⟩

def webObjects : ObjectStore (String × String) := ⟨decoded plainCodec webDB, HasEntry webDB⟩

theorem refines_webContext : Refines plainApi webObjects webContext := by
  have hobj : plainCodec.unmarshal .pod ("ns/web", "v1") = .ok ("ns/web", "v1") := rfl
  have hdb : WellStored plainCodec webDB := wellStored_plainCodec_empty.update hobj rfl
  exact ⟨rfl, mirrors_newEdgehubStore hdb, fun _ _ => rfl⟩

/-- Another pod is put, and asked for after a restart. -/
def webActions : List (HubAction (String × String)) :=
  [.request .apiv1 "pods" (.updatePut "ns" "db" (.ok ("ns/db", "v1"))) MapOrder.sorted (.ok ("", "")),
    .restart,
    .request .apiv1 "pods" (.get "ns" "db" "/api/v1/namespaces/ns/pods/db") MapOrder.sorted (.ok ("", ""))]

/-- The pod is found. -/
theorem offline_api_refines_store_web :
    (runApi plainApi webContext webActions).1 = [.body (some ("ns/db", "v1")), .body (some ("ns/db", "v1"))] ∧
      ∃ a', webObjects.Runs plainApi webActions (runApi plainApi webContext webActions).1 a' ∧
        Refines plainApi a' (runApi plainApi webContext webActions).2 := by
  refine ⟨by decide, offline_api_refines_store plainApi refines_webContext webActions ?_⟩
  intro action haction
  simp only [webActions, List.mem_cons, List.not_mem_nil, or_false] at haction
  rcases haction with rfl | rfl | rfl
  · intro r data hr hdata
    obtain rfl := Except.ok.inj hdata
    exact ⟨_, rfl, rfl⟩
  · trivial
  · trivial

end OteStack.EdgeHub
