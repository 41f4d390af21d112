import Ensemble.Json.Decode

/-!
# Token usage and prices

Counters are 64 bit words. A price is dollars per million tokens.
-/

namespace Ensemble

structure Usage where
  input : UInt64
  output : UInt64
  cachedInput : UInt64 := 0
  cacheWrite : UInt64 := 0
deriving DecidableEq

namespace Usage

def zero : Usage := ⟨0, 0, 0, 0⟩

def add (a b : Usage) : Usage :=
  ⟨a.input + b.input, a.output + b.output, a.cachedInput + b.cachedInput, a.cacheWrite + b.cacheWrite⟩

/-- Cached tokens are part of neither counter. -/
def total (u : Usage) : UInt64 := u.input + u.output

def toJson (u : Usage) : Json :=
  .object [
    ("input_tokens", .nat u.input.toNat), ("output_tokens", .nat u.output.toNat),
    ("cached_input_tokens", .nat u.cachedInput.toNat), ("cache_write_tokens", .nat u.cacheWrite.toNat)]

open Json Json.Decode in
def decode : Decoder Usage :=
  record "struct Usage" (Usage.mk <$> .required "input_tokens" word64
    <*> .required "output_tokens" word64
    <*> .defaulted "cached_input_tokens" 0 word64
    <*> .defaulted "cache_write_tokens" 0 word64)

end Usage

structure Pricing where
  input : Float
  output : Float
  cachedInput : Float := 0
  cacheWrite : Float := 0

namespace Pricing

/-- Dollars; the four products are added from left to right. -/
def cost (p : Pricing) (u : Usage) : Float :=
  (u.input.toFloat * p.input + u.output.toFloat * p.output + u.cachedInput.toFloat * p.cachedInput +
    u.cacheWrite.toFloat * p.cacheWrite) / 1000000

def toJson (p : Pricing) : Json :=
  .object [
    ("input_per_mtok", .float p.input), ("output_per_mtok", .float p.output),
    ("cached_input_per_mtok", .float p.cachedInput), ("cache_write_per_mtok", .float p.cacheWrite)]

open Json Json.Decode in
def decode : Decoder Pricing :=
  record "struct Pricing" (Pricing.mk <$> .required "input_per_mtok" float
    <*> .required "output_per_mtok" float
    <*> .defaulted "cached_input_per_mtok" 0 float
    <*> .defaulted "cache_write_per_mtok" 0 float)

end Pricing

end Ensemble
