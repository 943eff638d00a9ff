import PigChain.Bind.Chain
import PigChain.Expr.ToJson
import PigChain.Script.Lower

/-!
# Compiled chains

A chain is bound to a stage, and the stage is lowered to a script. Nothing is written unless binding succeeds.
-/

namespace PigChain

/-- All that one execution of a chain needs. -/
structure Compiled where
  stage : Stage
  cardinality : Cardinality
  script : Script
  /-- The script as it is sent. -/
  text : String

/-- How the rows of the script are read. -/
def Compiled.projector (c : Compiled) : Projector := c.stage.projector

/-- The script of a chain. -/
def Expr.compile (options : RenderOptions) (chain : Expr) : BindM Compiled := do
  let b ← chain.bound
  let script ← .silent b.stage.script
  .note ⟨.debug, "oinq_pig", "Translated chain",
    [("chain", .shown chain.fingerprint), ("stages", .number b.stage.count)]⟩
  pure ⟨b.stage, b.cardinality, script, script.render options⟩

end PigChain
