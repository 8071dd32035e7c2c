import AgentFlow.Output.Names

/-!
# Generated utilities

The file of a utility: a function still to be written, and a call of it with stand-in values.
-/

namespace AgentFlow.UtilitySpec

open Output

def file (u : UtilitySpec) : String :=
  Text.unlines
    [docString (docText u.summary),
      "",
      "from typing import Any",
      "",
      "",
      "def " ++ u.name ++ "(" ++ commas u.parameterItems ++ ") -> " ++ u.returnType ++ ":",
      "    " ++ docString (docText u.summary),
      "    raise NotImplementedError(" ++ Text.quoted (u.name ++ " is not implemented yet") ++ ")",
      "",
      "",
      "if __name__ == \"__main__\":",
      "    print(" ++ u.name ++ "(" ++ commas (u.parameters.map fun p => sampleValue p.type) ++
        "))"]

end AgentFlow.UtilitySpec
