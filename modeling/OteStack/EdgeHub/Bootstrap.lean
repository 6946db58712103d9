/-
# OteStack.EdgeHub.Bootstrap — k3s bootstrap data and the clean-up of the database.

The k3s handlers keep what the master has answered under the type `cert`, to answer from it when the
master is not reachable.  These entries share the database with the mirrored resources, and `cert` is the
type of no syncer.  `MergeDelete` removes every entry that no informer knows, so each successful start of
the syncers removes the bootstrap data (`certResponse_iff`).  The one exception is a database with a name
that has no separator, which makes `MergeDelete` give up.
-/
import OteStack.EdgeHub.Hub

namespace OteStack.EdgeHub

open OteStack.Lib (GoMap MapOrder runSteps runSteps_cons StepsMeet stepsMeet_cons stepsMeet_of_forall)
open EdgehubStorage (HasBareName Known)

variable {O B : Type}

/-! ## Names of bootstrap data -/

theorem dash_mem_formKeyName (objType key : String) : '-' ∈ (formKeyName objType key).toList := by
  simp [formKeyName]

theorem dash_notMem_cert : '-' ∉ "cert".toList := by decide

theorem cert_ne_name (r : Resource) : "cert" ≠ r.name := by
  cases r <;> decide

theorem certName_ne (r : Resource) (key key' : String) :
    formKeyName "cert" key ≠ formKeyName r.name key' := by
  rw [Ne, formKeyName_inj dash_notMem_cert r.dash_notMem_name]
  exact fun hand => cert_ne_name r hand.1

/-- The caches of the informers. -/
def Informers.cache (inf : Informers O) : Cache O :=
  GoMap.ofList ((registerSyncer inf.checkResourceExist).map fun r => (r.name, inf.indexer r))

/-- No informer knows a bootstrap entry. -/
theorem not_known_cert (inf : Informers O) (key : String) :
    ¬ Known inf.cache (formKeyName "cert" key) := by
  have hnone : inf.cache.get "cert" = none := by
    refine GoMap.get_ofList_of_notMem ?_
    rw [List.map_map]
    intro hmem
    obtain ⟨r, -, hr⟩ := List.mem_map.mp hmem
    exact cert_ne_name r hr.symm
  rw [EdgehubStorage.known_iff (splitKeyName_formKeyName dash_notMem_cert key), hnone]
  simp

theorem levelDB_refreshStorage_of_bare (inf : Informers O) {s : EdgehubStorage O B}
    (h : HasBareName s.levelDB) : (refreshStorage inf s).levelDB = s.levelDB := by
  have hsame := EdgehubStorage.mergeDelete_of_bare (s := { s with cache := inf.cache }) h
  exact (congrArg EdgehubStorage.levelDB hsame :)

theorem get_refreshStorage_of_unknown {inf : Informers O} {s : EdgehubStorage O B} {name : String}
    (h : ¬ HasBareName s.levelDB) (hknown : ¬ Known inf.cache name) :
    (refreshStorage inf s).levelDB.get name = none :=
  (EdgehubStorage.get_mergeDelete (s := { s with cache := inf.cache }) h name).2 hknown

/-! ## One move -/

namespace Hub

variable (c : Codec O B)

/-- The move may change the database entry of a name. -/
def Touches (h : Hub O B) (name : String) : Action O B → Prop
  | .storeAnswer i => ∃ req data, h.answered[i]? = some (req, data) ∧ name = formKeyName "cert" req.storeKey
  | .mirror r key _ => name = formKeyName r.name key
  | .startSyncer outcome => outcome.isSome
  | _ => False

variable {c}

theorem get_levelDB_of_not_touches {h h' : Hub O B} {a : Action O B} {name : String}
    (hstep : h.step c a = some h') (htouch : ¬ h.Touches name a) :
    h'.store.levelDB.get name = h.store.levelDB.get name := by
  cases transition_of_step hstep with
  | healthCheck hphase => rfl
  | handOverReady hphase hloop => rfl
  | handOverNotReady hphase hloop => rfl
  | setRemoteEnable hphase => rfl
  | handleSignal hloop => rw [(frame_handleSignal h _).2]
  | @startSyncer outcome hloop =>
      obtain rfl : outcome = none := by simpa [Touches] using htouch
      rfl
  | @certRequest req answer =>
      obtain ⟨l, hl⟩ := h.certRequest_eq req answer
      rw [hl]
  | storeAnswer hi => exact GoMap.get_set_of_ne _ (fun heq => htouch ⟨_, _, hi, heq⟩) _
  | mirrorUpdate => exact GoMap.get_set_of_ne _ htouch _
  | mirrorDelete => exact GoMap.get_delete_of_ne _ htouch

/-- A successful start of the syncers changes the database as `RefreshStorage` does. -/
theorem levelDB_of_startSyncer {h h' : Hub O B} {inf : Informers O}
    (hstep : h.step c (.startSyncer (some inf)) = some h') :
    h'.store.levelDB = (refreshStorage inf h.store).levelDB := by
  cases transition_of_step hstep
  rfl

/-- A bare name is never written, and never removed. -/
theorem get_levelDB_of_bare {h h' : Hub O B} {a : Action O B} {name : String}
    (hstep : h.step c a = some h') (hname : '-' ∉ name.toList) :
    h'.store.levelDB.get name = h.store.levelDB.get name := by
  have hne : ∀ objType key, name ≠ formKeyName objType key := by
    rintro objType key rfl
    exact hname (dash_mem_formKeyName objType key)
  by_cases htouch : h.Touches name a
  · rcases a with dials | - | - | - | outcome | ⟨req, answer⟩ | i | ⟨r, key, data⟩ <;>
      try exact htouch.elim
    · obtain ⟨inf, rfl⟩ := Option.isSome_iff_exists.mp htouch
      rw [levelDB_of_startSyncer hstep]
      by_cases hbare : HasBareName h.store.levelDB
      · rw [levelDB_refreshStorage_of_bare inf hbare]
      · have hnone : h.store.levelDB.get name = none := by
          by_contra hsome
          exact hbare ⟨name, hsome, hname⟩
        rw [hnone]
        refine get_refreshStorage_of_unknown hbare ?_
        rintro ⟨objType, key, hsplit, -⟩
        simp [splitKeyName, OteStack.Lib.GoStrings.cut, hname] at hsplit
    · obtain ⟨req, data, -, heq⟩ := htouch
      exact absurd heq (hne _ _)
    · exact absurd htouch (hne _ _)
  · exact get_levelDB_of_not_touches hstep htouch

theorem hasBareName_step {h h' : Hub O B} {a : Action O B} (hstep : h.step c a = some h') :
    HasBareName h'.store.levelDB ↔ HasBareName h.store.levelDB := by
  refine exists_congr fun name => and_congr_left fun hname => ?_
  rw [get_levelDB_of_bare hstep hname]

/-! ## Bootstrap data along a run -/

/-- The action is a successful start of the syncers. -/
def isOnlineStart : Action O B → Bool
  | .startSyncer outcome => outcome.isSome
  | _ => false

theorem exists_of_isOnlineStart {a : Action O B} (h : isOnlineStart a = true) :
    ∃ inf, a = .startSyncer (some inf) := by
  unfold isOnlineStart at h
  split at h
  · obtain ⟨inf, rfl⟩ := Option.isSome_iff_exists.mp h
    exact ⟨inf, rfl⟩
  · exact absurd h (by simp)

/-- The move does not store another answer under the key. -/
def NotOverwritten (key : String) (h : Hub O B) (a : Action O B) : Prop :=
  ∀ i req data, a = .storeAnswer i → h.answered[i]? = some (req, data) → req.storeKey ≠ key

/-- Only a successful start touches a bootstrap entry that is not overwritten. -/
theorem not_touches_cert {key : String} {h : Hub O B} {a : Action O B} (hok : h.NotOverwritten key a)
    (hstart : isOnlineStart a = false) : ¬ h.Touches (formKeyName "cert" key) a := by
  rcases a with dials | - | - | - | outcome | ⟨req, answer⟩ | i | ⟨r, key', data⟩ <;>
    try exact id
  · intro htouch
    exact absurd (hstart.symm.trans htouch) (by simp)
  · rintro ⟨req, data, hi, heq⟩
    rw [formKeyName_inj dash_notMem_cert dash_notMem_cert] at heq
    exact hok i req data rfl hi heq.2.symm
  · exact certName_ne r key key'

/-- A bootstrap entry that is not overwritten is removed by the first successful start of the syncers,
unless the database has a bare name. -/
theorem get_cert_run {key : String} :
    ∀ {as : List (Action O B)} {h h' : Hub O B},
      StepsMeet (step c) (NotOverwritten key) h as → runSteps (step c) h as = some h' →
      (as.any isOnlineStart = false ∨ HasBareName h.store.levelDB →
        h'.store.levelDB.get (formKeyName "cert" key) = h.store.levelDB.get (formKeyName "cert" key)) ∧
      (as.any isOnlineStart = true → ¬ HasBareName h.store.levelDB →
        h'.store.levelDB.get (formKeyName "cert" key) = none)
  | [], h, h', _, hrun => by
      obtain rfl : h = h' := Option.some.inj hrun
      exact ⟨fun _ => rfl, fun hany => absurd hany (by simp)⟩
  | a :: as, h, h', hok, hrun => by
      obtain ⟨h₁, hstep, hrest⟩ := runSteps_cons.mp hrun
      obtain ⟨hoka, hok'⟩ := stepsMeet_cons hok hstep
      obtain ⟨hkeep, hremove⟩ := get_cert_run hok' hrest
      rw [hasBareName_step hstep] at hkeep hremove
      rw [List.any_cons]
      by_cases hstart : isOnlineStart a = true
      · -- this start removes the entry, or a bare name keeps it and all later starts from doing so
        obtain ⟨inf, rfl⟩ := exists_of_isOnlineStart hstart
        rw [levelDB_of_startSyncer hstep] at hkeep
        rw [hstart, Bool.true_or]
        constructor
        · rintro (hfalse | hbare)
          · exact absurd hfalse (by simp)
          · rw [hkeep (Or.inr hbare), levelDB_refreshStorage_of_bare inf hbare]
        · intro _ hbare
          by_cases hany : as.any isOnlineStart = true
          · exact hremove hany hbare
          · rw [hkeep (Or.inl (by simpa using hany)),
              get_refreshStorage_of_unknown hbare (not_known_cert inf key)]
      · have hsame := get_levelDB_of_not_touches hstep (not_touches_cert hoka (by simpa using hstart))
        rw [Bool.not_eq_true] at hstart
        rw [hsame] at hkeep
        rw [hstart, Bool.false_or]
        exact ⟨hkeep, hremove⟩

theorem hasBareName_run {as : List (Action O B)} {h h' : Hub O B}
    (hrun : runSteps (step c) h as = some h') :
    HasBareName h'.store.levelDB ↔ HasBareName h.store.levelDB :=
  OteStack.Lib.runSteps_invariant
    (I := fun t => HasBareName t.store.levelDB ↔ HasBareName h.store.levelDB)
    (fun hI hstep => (hasBareName_step hstep).trans hI) Iff.rfl hrun

/-- In every run, an answer of the master that a k3s handler has stored and that was not overwritten since
is what the same request gets offline, exactly when the syncers have not been started successfully in
between, or the database the hub was started on has a bare name. -/
theorem certResponse_iff (c : Codec O B) (db : GoMap String B) {as bs : List (Action O B)}
    {h₁ h₂ h₃ : Hub O B} {i : ℕ} {req : CertRequest} {data : B} (answer : Except String B)
    (hpast : runSteps (step c) (init c db) as = some h₁)
    (hanswered : h₁.answered[i]? = some (req, data)) (hstore : h₁.step c (.storeAnswer i) = some h₂)
    (hrun : runSteps (step c) h₂ bs = some h₃)
    (hkept : StepsMeet (step c) (NotOverwritten req.storeKey) h₂ bs)
    (hoffline : h₃.lb.remoteEnable = false) :
    h₃.certResponse req answer = .ok data ↔ bs.any isOnlineStart = false ∨ HasBareName db := by
  have hstored : h₂.store.levelDB.get (formKeyName "cert" req.storeKey) = some data := by
    simp only [step, hanswered] at hstore
    obtain rfl := Option.some.inj hstore
    exact GoMap.get_set_self _ _ _
  have hbare : HasBareName h₂.store.levelDB ↔ HasBareName db :=
    (hasBareName_step hstore).trans (hasBareName_run hpast)
  obtain ⟨hkeep, hremove⟩ := get_cert_run hkept hrun
  rw [certResponse, hoffline, Bool.not_false, if_pos rfl, levelDBGet_eq_ok, ← hbare]
  constructor
  · intro hget
    by_contra hnot
    rw [not_or, Bool.not_eq_false] at hnot
    rw [hremove hnot.1 hnot.2] at hget
    exact absurd hget (by simp)
  · intro hor
    rw [hkeep hor, hstored]

/-- The master is reached, and the syncers start with empty informers. -/
def goOnline : List (Action (String × String) (String × String)) :=
  [.healthCheck [true], .handOver, .setRemoteEnable, .handleSignal,
    .startSyncer (some ⟨fun _ => false, fun _ => ∅⟩)]

/-- The master is lost, and the syncers are stopped. -/
def goOffline : List (Action (String × String) (String × String)) :=
  [.healthCheck [false], .handOver, .handleSignal]

/-- The configuration is fetched and stored, the hub goes offline, online and offline again: the
configuration is gone. -/
theorem config_lost_after_reconnect :
    ∃ h₁ h₂ h₃, runSteps (step plainCodec) (init plainCodec ∅)
        (goOnline ++ [.certRequest .config (.ok ("config", "token"))]) = some h₁ ∧
      h₁.answered[0]? = some (.config, ("config", "token")) ∧
      h₁.step plainCodec (.storeAnswer 0) = some h₂ ∧
      runSteps (step plainCodec) h₂ (goOffline ++ goOnline ++ goOffline) = some h₃ ∧
      h₃.lb.remoteEnable = false ∧
      h₃.certResponse .config (.error "unreachable") =
        .error "get cert-config obj failed: leveldb: not found" :=
  ⟨_, _, _, rfl, rfl, rfl, rfl, rfl, by decide⟩

/-- Without going online in between, the configuration is returned. -/
theorem config_kept_offline :
    ∃ h₁ h₂ h₃, runSteps (step plainCodec) (init plainCodec ∅)
        (goOnline ++ [.certRequest .config (.ok ("config", "token"))]) = some h₁ ∧
      h₁.step plainCodec (.storeAnswer 0) = some h₂ ∧
      runSteps (step plainCodec) h₂ goOffline = some h₃ ∧
      h₃.certResponse .config (.error "unreachable") = .ok ("config", "token") := by
  obtain ⟨h₁, h₂, h₃, hpast, hanswered, hstore, hrun, hoffline⟩ :
      ∃ h₁ h₂ h₃, runSteps (step plainCodec) (init plainCodec ∅)
          (goOnline ++ [.certRequest .config (.ok ("config", "token"))]) = some h₁ ∧
        h₁.answered[0]? = some (.config, ("config", "token")) ∧
        h₁.step plainCodec (.storeAnswer 0) = some h₂ ∧
        runSteps (step plainCodec) h₂ goOffline = some h₃ ∧ h₃.lb.remoteEnable = false :=
    ⟨_, _, _, rfl, rfl, rfl, rfl, rfl⟩
  have hkept : StepsMeet (step plainCodec) (NotOverwritten CertRequest.config.storeKey) h₂ goOffline := by
    refine stepsMeet_of_forall ?_ h₂
    rintro a ha s i req data rfl
    exact absurd ha (by simp [goOffline])
  exact ⟨h₁, h₂, h₃, hpast, hstore, hrun,
    (certResponse_iff plainCodec ∅ _ hpast hanswered hstore hrun hkept hoffline).mpr
      (Or.inl (by decide))⟩

end Hub

end OteStack.EdgeHub
