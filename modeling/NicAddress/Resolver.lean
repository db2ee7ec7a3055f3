import NicAddress.Backend

/-! # Resolvers

A resolver looks up addresses on a backend with a fixed configuration. All its entry points come
down to one lookup of the backend; they differ in what they keep of a failure, and in whether they
write to a buffer of the caller, which is touched only by a success. A backend can also be asked
without a resolver, with a given configuration or with the default one.
-/
namespace NicAddress

/-- Where a caller wants the octets of an address. -/
abbrev Buffer := Vector UInt8 6

structure Resolver {Call : Type} (Answer : Call → Type) where
  backend : Backend Answer
  config : Config := {}

namespace Resolver

variable {Call : Type} {Answer : Call → Type}

/-- The resolver with the default configuration. -/
def ofBackend (backend : Backend Answer) : Resolver Answer := { backend }

def tryLookup (resolver : Resolver Answer) (index : Index) : Lookup Answer := do
  Program.log (.trace s!"looking up interface {index} ({resolver.backend.name} backend)")
  resolver.backend.lookupWith index resolver.config

def lookup (resolver : Resolver Answer) (index : Index) : Program Answer (Except NotFound Mac) :=
  Lookup.orNotFound (resolver.tryLookup index)

/-- The outcome, and the buffer as it is left. -/
def lookupInto (resolver : Resolver Answer) (index : Index) (buffer : Buffer) :
    Program Answer (Except NotFound Unit × Buffer) := do
  match ← resolver.lookup index with
  | .ok m => return (.ok (), m.octets)
  | .error e => return (.error e, buffer)

/-- The address of the interface that the system lists first. -/
def primaryAdapter (resolver : Resolver Answer) : Program Answer (Option Mac) := do
  return (← resolver.lookup 0).toOption

end Resolver

namespace Backend

variable {Call : Type} {Answer : Call → Type} (backend : Backend Answer)

/-- Goes straight to the backend, with no resolver in between. -/
def lookupWithConfig (index : Index) (config : Config) : Lookup Answer :=
  backend.lookupWith index config

def defaultTryLookup (index : Index) : Lookup Answer :=
  (Resolver.ofBackend backend).tryLookup index

def defaultLookup (index : Index) : Program Answer (Except NotFound Mac) :=
  (Resolver.ofBackend backend).lookup index

def defaultLookupInto (index : Index) (buffer : Buffer) :
    Program Answer (Except NotFound Unit × Buffer) :=
  (Resolver.ofBackend backend).lookupInto index buffer

def defaultPrimaryAdapter : Program Answer (Option Mac) :=
  (Resolver.ofBackend backend).primaryAdapter

end Backend

end NicAddress
