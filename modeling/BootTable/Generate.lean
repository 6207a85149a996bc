import BootTable.Registry.Load
import BootTable.TableText

/-!
# BootTable — from sources to the text of the table

The whole way: merge the sources, check and order the registry, turn the plan into entries and
write their text. The first stage that fails decides the failure, and nothing is written then.
-/

namespace BootTable

/-- Why definitions that could be read make no table. -/
inductive BuildError where
  | registry (cause : RegistryError)
  | plan (cause : PlanError)
deriving DecidableEq, Repr

def BuildError.message : BuildError → String
  | registry cause => cause.message
  | plan cause => cause.message

/-- The text of the table that sources describe. -/
def generate (sources : List Source) (config : TableConfig) : Logged BuildError String := do
  let registry ← (Registry.load sources).mapError .registry
  let plan ← (schedule registry).mapError .plan
  let entries := flatten plan registry
  .report (.sequenceFlattened entries.length (apIdFrom? entries))
  let text := TableText.render entries config
  .report (.tableGenerated sources.length plan.size entries.length)
  return text

end BootTable
