import GrowthAudit.CppType.Cause

/-!
# About the analyzer

What the analyzer says about itself: its name and version, how deep explanations go, its parts, and
the names that it offers to others.
-/

namespace GrowthAudit

/-- A part of the analyzer and the names that it offers. -/
structure AnalyzerPart where
  name : String
  offers : List String
  deriving DecidableEq, Repr

namespace Analyzer

def name : String := "vector_pessimization"

def version : String := "0.1.0"

def parts : List AnalyzerPart :=
  [⟨"descriptors", ["SourceLocation", "TypeKind", "ExceptionSpecKind", "ClassifiedSpec",
      "ConstructorDescriptor", "FieldDescriptor", "BaseDescriptor", "RecordDescriptor",
      "TypeDescriptor"]⟩,
   ⟨"exception_spec", ["classify", "find_move_constructor"]⟩,
   ⟨"triviality", ["is_trivially_copyable"]⟩,
   ⟨"move_safety", ["Verdict", "will_degrade", "evaluate"]⟩,
   ⟨"causal_chain", ["MAX_DEPTH", "CauseKind", "CauseStep", "BlamedEntity", "explain"]⟩,
   ⟨"site_driver", ["Finding", "on_container_instantiation"]⟩,
   ⟨"diagnostics", ["Diagnostic", "DiagnosticSeverity", "render_finding"]⟩,
   ⟨"config", ["AnalyzerConfig"]⟩,
   ⟨"errors", ["AnalyzerError", "ConfigError", "DumpLoadError"]⟩,
   ⟨"frontend", ["CppcheckFrontend"]⟩,
   ⟨"checkers", ["VectorPessimizationChecker", "CheckerRunner", "run_addon"]⟩]

/-- The names of the parts, sorted. -/
def partNames : List String := (parts.map (·.name)).mergeSort

/-- All names on offer, sorted: those of the parts, the parts themselves, and what tells about the
analyzer. -/
def offered : List String :=
  (parts.flatMap (fun p => p.offers ++ [p.name]) ++
    ["list_submodules", "analyzer_info", "__version__"]).mergeSort

def maxDepth : Int := CppType.defaultDepth

end Analyzer

end GrowthAudit
