import Osfx.SessionState

/-!
# The glue layer

`osfx_glue.c`: a context of a session store and an id allocator, set up from one
configuration, and the packets that are given to it. Its codec state, protocol matrix and
platform runtime take no part in what is done with a packet.
-/

namespace Osfx

open SecureStore

/-- `OSFX_GLUE_OK` and the errors. -/
inductive GlueStatus where
  | ok
  | errArg
  | errRuntime
  | errCodec
  deriving DecidableEq, Repr

structure GlueConfig where
  localAid : UInt32
  idStart : UInt32
  idEnd : UInt32
  idDefaultLeaseSeconds : UInt64
  secureExpireSeconds : UInt64
  deriving DecidableEq, Repr

def glueDefaultConfig : GlueConfig where
  localAid := 1
  idStart := 100
  idEnd := 10000
  idDefaultLeaseSeconds := 86400
  secureExpireSeconds := 86400

/-- A configuration as `osfx_glue_init` completes it: a field that is 0 has its default, and
the range ends no earlier than it starts. -/
def GlueConfig.completed (cfg : GlueConfig) : GlueConfig :=
  let idStart := if cfg.idStart = 0 then 100 else cfg.idStart
  { localAid := if cfg.localAid = 0 then idStart else cfg.localAid
    idStart
    idEnd := if cfg.idEnd < idStart then idStart else cfg.idEnd
    idDefaultLeaseSeconds :=
      if cfg.idDefaultLeaseSeconds = 0 then 86400 else cfg.idDefaultLeaseSeconds
    secureExpireSeconds := if cfg.secureExpireSeconds = 0 then 86400 else cfg.secureExpireSeconds }

/-- The configuration a context is set up from. No configuration is the default one. -/
def glueConfig (cfg : Option GlueConfig) : GlueConfig :=
  (cfg.map GlueConfig.completed).getD glueDefaultConfig

structure GlueCtx (n : Nat) where
  localAid : UInt32
  secureStore : SecureStore
  idAllocator : IdAllocator n

/-- `osfx_glue_init`, which always returns `OSFX_GLUE_OK`. -/
def glueInit (n : Nat) (cfg : Option GlueConfig) : GlueCtx n where
  localAid := (glueConfig cfg).localAid
  secureStore := secureStoreInit (glueConfig cfg).secureExpireSeconds
  idAllocator := .init n (glueConfig cfg).idStart (glueConfig cfg).idEnd
    (glueConfig cfg).idDefaultLeaseSeconds

/-- What a call returns, the result it fills in, if it does, and the context after it. -/
structure GlueOutcome (n : Nat) where
  status : GlueStatus
  result : Option HsResult
  ctx : GlueCtx n

variable {n : Nat}

/-- `osfx_glue_process_packet`. The store and the allocator of the context are dispatched by
address, so that what becomes of them is what the context has afterwards. -/
def glueProcessPacket (ctx : GlueCtx n) (packet : Bytes) (nowTs : UInt64) : GlueOutcome n :=
  if packet = [] then ⟨.errArg, none, ctx⟩
  else
    let o := hsClassifyDispatch ⟨some ctx.secureStore, some ctx.idAllocator, nowTs⟩ packet
    ⟨if o.ret then .ok else .errRuntime, some o.result, { ctx with
      secureStore := o.ctx.secureStore.getD ctx.secureStore
      idAllocator := o.ctx.idAllocator.getD ctx.idAllocator }⟩

/-- A packet and the time it is given to the context. -/
abbrev GluePacket := Bytes × UInt64

/-- The context after packets have been given to it. -/
def glueRun (ctx : GlueCtx n) (ps : List GluePacket) : GlueCtx n :=
  ps.foldl (fun ctx p => (glueProcessPacket ctx p.1 p.2).ctx) ctx

/-- The packet as it is handed to the store of the context. -/
def GlueCtx.delivery (ctx : GlueCtx n) (packet : Bytes) (nowTs : UInt64) : Delivery n :=
  ⟨packet, nowTs, some ctx.idAllocator⟩

theorem glueProcessPacket_cons (ctx : GlueCtx n) {packet : Bytes} (h : packet ≠ [])
    (nowTs : UInt64) :
    (glueProcessPacket ctx packet nowTs).status =
      (if ((ctx.delivery packet nowTs).dispatch ctx.secureStore).ret then .ok else .errRuntime) ∧
    (glueProcessPacket ctx packet nowTs).result =
      some ((ctx.delivery packet nowTs).dispatch ctx.secureStore).result := by
  rw [glueProcessPacket, if_neg h]
  exact ⟨rfl, rfl⟩

/-- What every packet keeps of the store, the context keeps of it. -/
theorem glueRun_store {I : SecureStore → Prop}
    (hI : ∀ store (d : Delivery n) store', I store →
      (d.dispatch store).ctx.secureStore = some store' → I store')
    {ctx : GlueCtx n} (h : I ctx.secureStore) (ps : List GluePacket) :
    I (glueRun ctx ps).secureStore := by
  induction ps generalizing ctx with
  | nil => exact h
  | cons p ps ih =>
    apply ih
    obtain ⟨packet, nowTs⟩ := p
    obtain ⟨store', hstore, -⟩ := dispatch_cases (ctx.delivery packet nowTs) ctx.secureStore
    have hnext := hI _ _ _ h hstore
    simp only [glueProcessPacket]
    split
    · exact h
    · have hsame : (hsClassifyDispatch ⟨some ctx.secureStore, some ctx.idAllocator, nowTs⟩
          packet).ctx.secureStore = some store' := hstore
      simp only [hsame, Option.getD_some]
      exact hnext

theorem aidsDistinct_glueRun (cfg : Option GlueConfig) (ps : List GluePacket) :
    SecureStore.AidsDistinct (glueRun (glueInit n cfg) ps).secureStore :=
  glueRun_store (fun _ _ _ h hstore => aidsDistinct_dispatch h hstore)
    (storeOk_init (glueConfig cfg).secureExpireSeconds).distinct ps

end Osfx
