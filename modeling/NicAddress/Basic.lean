/-! # What a lookup is asked with, and what it tells

A lookup is asked for an index. Where devices are found by name, the name is a stem followed by the
index; the stem can be set, and without that it is the usual one for Ethernet devices. What a lookup
does is told to the log line by line, and each line has a level. All levels are on.
-/
namespace NicAddress

/-- Interfaces are numbered from zero in the order in which the system lists them. -/
abbrev Index := UInt32

def defaultStem : String := "eth"

structure Config where
  explicitStem : Option String := none
  deriving DecidableEq, Repr

namespace Config

instance : Inhabited Config := ⟨{}⟩

def stem (config : Config) : String := config.explicitStem.getD defaultStem

def withStem (config : Config) (stem : String) : Config := { config with explicitStem := some stem }

def withoutStem (config : Config) : Config := { config with explicitStem := none }

@[simp] theorem stem_withStem (config : Config) (stem : String) :
    (config.withStem stem).stem = stem := rfl

@[simp] theorem stem_withoutStem (config : Config) : config.withoutStem.stem = defaultStem := rfl

end Config

namespace Log

inductive Level where
  | trace
  | debug
  | info
  deriving DecidableEq, Repr

def Level.name : Level → String
  | trace => "trace"
  | debug => "debug"
  | info => "info"

structure Line where
  level : Level
  text : String
  deriving DecidableEq, Repr

def Line.trace (text : String) : Line := ⟨.trace, text⟩

def Line.debug (text : String) : Line := ⟨.debug, text⟩

def Line.info (text : String) : Line := ⟨.info, text⟩

def Line.render (line : Line) : String := s!"{line.level.name} {line.text}"

end Log

end NicAddress
