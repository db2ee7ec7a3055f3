import NicAddress.Resolver

/-! # Requests to a resolver

A caller makes requests one after another and keeps one buffer through all of them. Some requests go
past the resolver: they are served by its backend, most of them with the default configuration.
-/
namespace NicAddress

inductive Request where
  | lookup (index : Index)
  | tryLookup (index : Index)
  | lookupInto (index : Index)
  | lookupWithConfig (index : Index)
  | primaryAdapter
  | defaultLookup (index : Index)
  | defaultTryLookup (index : Index)
  | defaultLookupInto (index : Index)
  | defaultPrimaryAdapter
  deriving DecidableEq, Repr

inductive Response where
  | reply (reply : Reply)
  /-- The buffer holds the address. -/
  | written
  | primary (m : Option Mac)
  deriving DecidableEq, Repr

def Response.ofWritten : Except NotFound Unit → Response
  | .ok _ => written
  | .error _ => reply .notFound

namespace Resolver

variable {Call : Type} {Answer : Call → Type} {σ : Type}

def serve (resolver : Resolver Answer) (buffer : Buffer) :
    Request → Program Answer (Response × Buffer)
  | .lookup index => do return (.reply (.ofFound (← resolver.lookup index)), buffer)
  | .tryLookup index => do return (.reply (.ofOutcome (← resolver.tryLookup index)), buffer)
  | .lookupInto index => do
    let (outcome, after) ← resolver.lookupInto index buffer
    return (.ofWritten outcome, after)
  | .lookupWithConfig index => do
    return (.reply (.ofOutcome (← resolver.backend.lookupWithConfig index resolver.config)), buffer)
  | .primaryAdapter => do return (.primary (← resolver.primaryAdapter), buffer)
  | .defaultLookup index => do
    return (.reply (.ofFound (← resolver.backend.defaultLookup index)), buffer)
  | .defaultTryLookup index => do
    return (.reply (.ofOutcome (← resolver.backend.defaultTryLookup index)), buffer)
  | .defaultLookupInto index => do
    let (outcome, after) ← resolver.backend.defaultLookupInto index buffer
    return (.ofWritten outcome, after)
  | .defaultPrimaryAdapter => do
    return (.primary (← resolver.backend.defaultPrimaryAdapter), buffer)

/-- What a caller sees of one request. -/
structure Exchange where
  response : Response
  buffer : Buffer
  log : List Log.Line

/-- Serves requests in order; the buffer and the system are passed on. -/
def exchanges (resolver : Resolver Answer) (os : Os Answer σ) (buffer : Buffer) (s : σ) :
    List Request → List Exchange
  | [] => []
  | request :: requests =>
    let run := (resolver.serve buffer request).run os s
    ⟨run.result.1, run.result.2, run.log⟩ ::
      resolver.exchanges os run.result.2 run.state requests

end Resolver

end NicAddress
