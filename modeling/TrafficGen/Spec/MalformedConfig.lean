import TrafficGen.ForStd.JsonGrammar
import TrafficGen.Main

/-!
# Malformed configurations

The helpers of the parser report what they cannot read, but `parse_from_string` drops their
answers and returns `true` on every path. So no text is refused, and `main` falls back to the
defaults only when a file cannot be opened.

## Key results

- `onlyObjects_iff`: the parser does right by the texts that are objects, and by no other
- `not_onlyObjects_of_cut`: it accepts what is left of an object that was cut off
- `loadConfig_eq`: `main` goes on with whatever is found in a file
-/

namespace TrafficGen.ConfigParser

open Json (IsObject IsSpace)

/-- `parse_from_string` on the configuration of its caller: whether it succeeds, and what it leaves
    there. -/
def parseInto (jsonStr : String) (configOut : AppConfig) : Bool × AppConfig :=
  match parseFromString jsonStr with
  | none => (false, configOut)
  | some cfg => (true, cfg)

/-- The text is refused unless it is an object, and the caller's configuration is left alone
    then. -/
structure OnlyObjects (jsonStr : String) : Prop where
  refused : ¬ IsObject jsonStr.toList → ∀ configOut, parseInto jsonStr configOut = (false, configOut)
  accepted : ∀ configOut, (parseInto jsonStr configOut).1 = true → IsObject jsonStr.toList

/-- Every text is accepted. -/
theorem parseInto_fst (jsonStr : String) (configOut : AppConfig) :
    (parseInto jsonStr configOut).1 = true := rfl

theorem OnlyObjects.isObject {jsonStr : String} (h : OnlyObjects jsonStr) :
    IsObject jsonStr.toList :=
  h.accepted getDefaultConfig (parseInto_fst jsonStr getDefaultConfig)

/-- Nothing is ever refused, so the parser does right exactly by the texts that are objects. -/
theorem onlyObjects_iff (jsonStr : String) : OnlyObjects jsonStr ↔ IsObject jsonStr.toList := by
  constructor
  · exact OnlyObjects.isObject
  · intro h
    exact ⟨fun hnot => absurd h hnot, fun _ _ => h⟩

/-- A file that ends within the ports. -/
def cutOff : String := "\x7b\"num_cores\": 8, \"ports\": [\x7b\"port_id\": 1"

/-- It is accepted, with the core count it gives and the ports of the defaults. -/
theorem not_onlyObjects_cutOff :
    parseInto cutOff getDefaultConfig = (true, { getDefaultConfig with numCores := 8 }) ∧
      ¬ OnlyObjects cutOff := by
  refine ⟨by decide +kernel, fun h => ?_⟩
  -- two braces and a bracket are open at the end
  have hscan := h.isObject.scan_eq
  exact absurd hscan (by decide +kernel)

/-- However an object is cut off, what is left of it is accepted. -/
theorem not_onlyObjects_of_cut {a b : List Char} (hab : IsObject (a ++ b))
    (hcut : ∃ c ∈ b, ¬ IsSpace c) : ¬ OnlyObjects (String.ofList a) := by
  intro h
  have ha := h.isObject
  rw [String.toList_ofList] at ha
  exact Json.not_isObject_of_cut hab hcut ha

end TrafficGen.ConfigParser

namespace TrafficGen.Main

open ConfigParser

/-- Whatever a file holds, `main` goes on with what is found in it. The defaults are only for a
    file that cannot be opened. -/
theorem loadConfig_eq (readFile : String → Option String) {configPath jsonStr : String}
    (hpath : configPath.isEmpty = false) (hfile : readFile configPath = some jsonStr)
    (configOut : AppConfig) : loadConfig readFile configPath = (parseInto jsonStr configOut).2 := by
  rw [loadConfig, hpath, hfile]
  rfl

end TrafficGen.Main
