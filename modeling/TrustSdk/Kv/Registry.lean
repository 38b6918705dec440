import TrustSdk.Common.Errno
import TrustSdk.Kv.Program
import TrustSdk.Lib.Threads

/-!
# The namespaces of the store, shared by threads

`kv.c` for any number of threads that initialise the store, open and close handles and use them.
The first thread that gets there makes the lock of the registry, the others spin until it has
(`g_registry_init_state`); under that lock each storage of the map gets one entry, with a lock of
its own; and whatever touches a storage does so between `kv_lock` and `kv_unlock` of its entry.

What is done to a storage under its lock is an answer of the environment here
(`KvRegistryEnv.work`).
-/

namespace TrustSdk.Kv

open ByteStore Machine

/-- `CONFIG_ACTRUST_KV_NAMESPACE_MAX_LEN` -/
def kvNamespaceMaxLen : ℕ := 32

/-- `KV_REGISTRY_SIZE` -/
def kvRegistrySize : ℕ := 4

/-- `kv_ns_map_t` -/
structure KvNsMap where
  ns : Bytes
  id : UInt32
  deriving DecidableEq, Repr

/-- `kv_lookup_storage_id` -/
def kvLookupStorageId (map : List KvNsMap) (ns : Bytes) : Option UInt32 :=
  if ns = [] then none else (map.find? fun entry => entry.ns == ns).map KvNsMap.id

/-! ### The registry -/

/-- `g_registry_init_state`: 0, 1 and 2. -/
inductive KvInitState where
  | unset
  | creating
  | ready
  deriving DecidableEq, Repr

/-- `kv_namespace_t`, for an entry that is used. -/
structure KvNamespace where
  id : UInt32
  locked : Bool
  refs : ℕ
  deriving DecidableEq, Repr

/-- `struct actrust_kv`; `shared` is the position of its entry. -/
structure KvHandle where
  id : UInt32
  shared : Option ℕ
  freed : Bool
  deriving DecidableEq, Repr

/-- What the threads share. The entries that are used come first in `g_namespaces`, and stay. -/
structure KvRegistry where
  initState : KvInitState
  /-- Whether `g_registry_lock` is held, once it is there. -/
  lock : Option Bool
  /-- How many locks `g_registry_lock` has been. -/
  created : ℕ
  namespaces : List KvNamespace
  handles : List KvHandle
  /-- A lock that was not there has been used. -/
  fault : Bool
  deriving DecidableEq, Repr

/-- Before the first call of the process. -/
def KvRegistry.initial : KvRegistry := ⟨.unset, none, 0, [], [], false⟩

namespace KvRegistry

variable (s : KvRegistry)

/-- The storage ids that are registered, in their order. -/
def ids : List UInt32 := s.namespaces.map KvNamespace.id

/-- `kv_namespace_find` -/
def kvNamespaceFind (id : UInt32) : Option ℕ := s.ids.findIdx? fun other => other == id

/-- The mutex of a namespace is taken or given up. -/
def setLocked (k : ℕ) (locked : Bool) : KvRegistry :=
  { s with namespaces := s.namespaces.modify k fun n => { n with locked := locked } }

/-- The references of a namespace after `refs++` or `refs--`. -/
def setRefs (k : ℕ) (f : ℕ → ℕ) : KvRegistry :=
  { s with namespaces := s.namespaces.modify k fun n => { n with refs := f n.refs } }

end KvRegistry

/-! ### Calls -/

/-- The calls of `kv.h` that use the registry. -/
inductive KvApi where
  | init
  | open (ns : Bytes)
  /-- A set, a get, a del or an exists. -/
  | operate (handle : ℕ)
  | close (handle : ℕ)
  deriving DecidableEq, Repr

/-- Why the registry is prepared. -/
inductive KvPurpose where
  | init
  | open (id : UInt32)
  deriving DecidableEq, Repr

/-- Why a storage is locked: to prepare that of the entry `i` of the map, for a new handle, or for a
handle that is there. -/
inductive KvJob where
  | init (i : ℕ)
  | open (id : UInt32)
  | operate (handle : ℕ)
  | close (handle : ℕ)
  deriving DecidableEq, Repr

/-- Where a call is. Here `none` is `ACTRUST_OK`. -/
inductive KvCallPc where
  /-- In the loop of `kv_namespace_prepare`, -/
  | spinning (purpose : KvPurpose)
  /-- between its two compare-and-swaps. -/
  | competing (purpose : KvPurpose)
  /-- Before the lock of the registry is made. -/
  | creating (purpose : KvPurpose)
  | resetting (e : Err)
  | publishing (purpose : KvPurpose)
  /-- Before that lock is taken. -/
  | locking (purpose : KvPurpose)
  /-- With the lock, at the entry `i` of the map. -/
  | registering (purpose : KvPurpose) (i : ℕ)
  | unlocking (purpose : KvPurpose) (result : Option Err)
  /-- Before the storage is opened. -/
  | opening (job : KvJob)
  /-- Before the handle is looked at. -/
  | starting (job : KvJob)
  /-- Before `kv_lock`. -/
  | entering (job : KvJob) (shared : Option ℕ)
  /-- With the lock of the entry `k`. -/
  | inside (job : KvJob) (k : ℕ)
  | leaving (job : KvJob) (k : ℕ) (result : Option Err)
  | finishing (job : KvJob) (k : ℕ) (result : Option Err)
  | returned (result : Option Err)
  deriving DecidableEq, Repr

/-- What the adapter answers in a step, and what the work on the storage comes to. -/
structure KvRegistryEnv where
  mutexCreate : Option Err
  lock : Option Err
  unlock : Option Err
  alloc : Bool
  storageOpen : Option Err
  storageClose : Option Err
  work : Option Err
  deriving DecidableEq, Repr

/-- The first error of two. -/
def orErr : Option Err → Option Err → Option Err
  | some e, _ => some e
  | none, e => e

/-- How a call begins. -/
def KvApi.enter (map : List KvNsMap) : KvApi → KvCallPc
  | .init => .spinning .init
  | .open ns =>
    if ns = [] ∨ kvNamespaceMaxLen ≤ ns.length then .returned (some (kvErr .invalidArg))
    else
      match kvLookupStorageId map ns with
      | none => .returned (some (kvErr .invalidArg))
      | some id => .spinning (.open id)
  | .operate handle => .starting (.operate handle)
  | .close handle => .starting (.close handle)

/-- The loop of `actrust_kv_init`, from its entry `i` on. -/
def initFrom (map : List KvNsMap) (i : ℕ) : KvCallPc :=
  if i < map.length then .opening (.init i) else .returned none

/-- What follows `kv_namespace_prepare`. -/
def KvPurpose.prepared (map : List KvNsMap) : KvPurpose → KvCallPc
  | .init => initFrom map 0
  | .open id => .opening (.open id)

/-- The storage that a job is about. -/
def KvJob.storage (map : List KvNsMap) (s : KvRegistry) : KvJob → Option UInt32
  | .init i => map[i]?.map KvNsMap.id
  | .open id => some id
  | .operate handle => s.handles[handle]?.map KvHandle.id
  | .close handle => s.handles[handle]?.map KvHandle.id

/-- The storage is opened and its entry looked up; a new handle is allocated as well. -/
def openStorage (map : List KvNsMap) (env : KvRegistryEnv) (s : KvRegistry) (job : KvJob) :
    KvCallPc :=
  match job with
  | .open id =>
    if !env.alloc then .returned (some (kvErr .noMem))
    else
      match env.storageOpen with
      | some e => .returned (some e)
      | none => .entering job (s.kvNamespaceFind id)
  | _ =>
    match env.storageOpen with
    | some e => .returned (some e)
    | none => .entering job ((job.storage map s).bind s.kvNamespaceFind)

/-- `kv_lock`. A job that fails here closes its storage and frees its handle. -/
def lockShared (env : KvRegistryEnv) (s : KvRegistry) (job : KvJob) : Option ℕ →
    KvRegistry × KvCallPc
  | none => (s, .returned (some (kvErr .invalidArg)))
  | some k =>
    match s.namespaces[k]? with
    | none => (s, .returned (some (kvErr .invalidArg)))
    | some n =>
      match env.lock with
      | some e => (s, .returned (some e))
      | none =>
        if n.locked then (s, .entering job (some k)) else (s.setLocked k true, .inside job k)

/-- What is done with the lock. -/
def useStorage (env : KvRegistryEnv) (s : KvRegistry) (job : KvJob) (k : ℕ) :
    KvRegistry × KvCallPc :=
  match job with
  | .open _ =>
    (if env.work = none then s.setRefs k (· + 1) else s, .leaving job k env.work)
  | .close _ => (s.setRefs k (· - 1), .leaving job k env.storageClose)
  | _ => (s, .leaving job k env.work)

/-- `kv_unlock`; its error counts if there is none before it. -/
def unlockShared (env : KvRegistryEnv) (s : KvRegistry) (job : KvJob) (k : ℕ)
    (result : Option Err) : KvRegistry × KvCallPc :=
  (if env.unlock = none then s.setLocked k false else s,
    .finishing job k (orErr result env.unlock))

/-- The end of a job: an initialisation closes the storage and goes on, a handle is handed out or
freed. -/
def finishJob (map : List KvNsMap) (env : KvRegistryEnv) (s : KvRegistry) (k : ℕ)
    (result : Option Err) : KvJob → KvRegistry × KvCallPc
  | .init i =>
    match orErr result env.storageClose with
    | some e => (s, .returned (some e))
    | none => (s, initFrom map (i + 1))
  | .open id =>
    match result with
    | some e => (s, .returned (some e))
    | none => ({ s with handles := s.handles ++ [⟨id, some k, false⟩] }, .returned none)
  | .operate _ => (s, .returned result)
  | .close handle =>
    ({ s with handles := s.handles.modify handle fun h => { h with freed := true } },
      .returned result)

/-- One step of a call. A handle that was closed is not used again, as its caller has to see to:
such a call does nothing. -/
def KvCallPc.step (map : List KvNsMap) (env : KvRegistryEnv) (s : KvRegistry) :
    KvCallPc → KvRegistry × KvCallPc
  | .spinning purpose =>
    match s.initState with
    | .ready => (s, .locking purpose)
    | .unset => (s, .competing purpose)
    | .creating => (s, .spinning purpose)
  | .competing purpose =>
    if s.initState = .unset then ({ s with initState := .creating }, .creating purpose)
    else (s, .spinning purpose)
  | .creating purpose =>
    match env.mutexCreate with
    | some e => (s, .resetting e)
    | none => ({ s with lock := some false, created := s.created + 1 }, .publishing purpose)
  | .resetting e =>
    ({ s with initState := if s.initState = .creating then .unset else s.initState },
      .returned (some e))
  | .publishing purpose => ({ s with initState := .ready }, .locking purpose)
  | .locking purpose =>
    match env.lock with
    | some e => (s, .returned (some e))
    | none =>
      match s.lock with
      | none => ({ s with fault := true }, .returned (some (kvErr .invalidArg)))
      | some true => (s, .locking purpose)
      | some false =>
        ({ s with lock := some true },
          if kvRegistrySize < map.length then .unlocking purpose (some (kvErr .noResource))
          else .registering purpose 0)
  | .registering purpose i =>
    match map[i]? with
    | none => (s, .unlocking purpose none)
    | some entry =>
      if entry.id ∈ s.ids then (s, .registering purpose (i + 1))
      else if kvRegistrySize ≤ s.namespaces.length then
        (s, .unlocking purpose (some (kvErr .noResource)))
      else
        match env.mutexCreate with
        | some e => (s, .unlocking purpose (some e))
        | none =>
          ({ s with namespaces := s.namespaces ++ [⟨entry.id, false, 0⟩] },
            .registering purpose (i + 1))
  | .unlocking purpose result =>
    (if env.unlock = none then { s with lock := some false } else s,
      match orErr result env.unlock with
      | some e => .returned (some e)
      | none => purpose.prepared map)
  | .opening job => (s, openStorage map env s job)
  | .starting job =>
    match job with
    | .operate handle | .close handle =>
      match s.handles[handle]? with
      | some h =>
        if h.freed then (s, .returned (some (kvErr .invalidArg))) else (s, .entering job h.shared)
      | none => (s, .returned (some (kvErr .invalidArg)))
    | _ => (s, .returned (some (kvErr .invalidArg)))
  | .entering job shared => lockShared env s job shared
  | .inside job k => useStorage env s job k
  | .leaving job k result => unlockShared env s job k result
  | .finishing job k result => finishJob map env s k result job
  | .returned result => (s, .returned result)

/-- The threads inside the calls, over the one registry. -/
abbrev KvSystem := Threads.System KvRegistry KvCallPc

/-- A new call, or a step of one that is under way. -/
abbrev KvAction := Threads.Action KvApi KvRegistryEnv

/-- A step of the system, whichever thread makes it. -/
def KvSystem.step (map : List KvNsMap) : KvSystem → KvAction → Unit × KvSystem :=
  Threads.step (KvApi.enter map) (KvCallPc.step map)

/-- No call has been made. -/
def KvSystem.initial : KvSystem := ⟨.initial, []⟩

end TrustSdk.Kv
