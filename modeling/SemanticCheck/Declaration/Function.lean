import SemanticCheck.Declaration.Site
import SemanticCheck.Resolution
import SemanticCheck.Store

/-!
Declaring functions. The faults of a declaration come in a fixed order: its parameters, its result
type, its name, the shape of a callback, the names and the order of the parameters, the export, and
a missing name. A function is declared only when there is none.
-/
namespace SemanticCheck

/-- Checks the type of a parameter and its default value against it, and hands back the parameter
unless its type is unknown. -/
def Parameter.resolve (settings : AnalysisSettings) (names : Names) (found : List Fault)
    (p : Parameter) : List Fault × Option ParameterSymbol :=
  match Outcome.absorb found (p.typeExpr.resolve names) with
  | (found, none) => (found, none)
  | (found, some ty) =>
      let found := match p.default? with
        | some value =>
            (Outcome.absorb found
              (Inference.store (Expr.infer settings) settings names ty value value.location)).1
        | none => found
      (found, some { name := p.name.name, ty, optional := p.isOptional, default? := p.default?,
                     location := p.location })

namespace FunctionDecl

/-- A hardware vector passes a limited number of scalars and returns at most one. -/
def shapeFaults (decl : FunctionDecl) (settings : AnalysisSettings) (params : List ParameterSymbol)
    (result : Ty) : List Fault :=
  (if settings.maxCallbackParams < decl.params.length then
    [(Cause.tooManyParams decl.name.name decl.params.length settings.maxCallbackParams).fault decl.location]
  else []) ++
  (params.filter (!·.ty.isCallbackSafe)).map (fun p =>
    (Cause.unsafeParam p.name decl.name.name p.ty).fault p.location) ++
  (if result.isCallbackSafe then []
  else [(Cause.unsafeResult decl.name.name result).fault
    (decl.result.elim decl.location TypeExpr.location)])

/-- One fault for every parameter whose name occurred before, pointing to its first occurrence. That
one alone is remembered of a name. -/
def nameFaultsFrom (function : String) : List (String × Location) → List Parameter → List Fault
  | _, [] => []
  | seen, p :: rest =>
      match seen.lookup p.name.name with
      | some first =>
          (Cause.duplicateParam p.name.name function first).fault p.location ::
            nameFaultsFrom function seen rest
      | none => nameFaultsFrom function ((p.name.name, p.location) :: seen) rest

def nameFaults (decl : FunctionDecl) : List Fault := nameFaultsFrom decl.name.name [] decl.params

/-- One fault for every required parameter behind an optional one, which names the first of those.
Calls leave out trailing arguments only. -/
def orderFaultsFrom : Option Parameter → List Parameter → List Fault
  | _, [] => []
  | first, p :: rest =>
      if p.isOptional then orderFaultsFrom (first.or (some p)) rest
      else
        (match first with
          | some q => [(Cause.requiredAfterOptional p.name.name q.name.name).fault p.location]
          | none => []) ++ orderFaultsFrom first rest

def orderFaults (decl : FunctionDecl) : List Fault := orderFaultsFrom none decl.params

def exportFaults (decl : FunctionDecl) (kind : ScopeKind) : List Fault :=
  if decl.exported && !kind.allowsExports then
    [(Cause.exportNotAllowed decl.name.name kind).fault decl.location]
  else []

def namelessFaults (decl : FunctionDecl) : List Fault :=
  if decl.name.name = "" then [Cause.functionWithoutName.fault decl.location] else []

/-- The symbol that the declaration introduces. Void stands for a result type that is not known. -/
def symbol (decl : FunctionDecl) (settings : AnalysisSettings) (site : Site) : Outcome FunctionSymbol :=
  let (found, params) := Outcome.gather (Parameter.resolve settings site.names) [] decl.params
  let (found, result) := Outcome.absorb found (TypeExpr.resolveResult site.names decl.result)
  let result := result.getD .void
  let misshapen := if decl.callback then decl.shapeFaults settings params result else []
  Outcome.finish
    (found ++ site.duplicateFaults decl.name ++ misshapen ++ decl.nameFaults ++ decl.orderFaults ++
      decl.exportFaults site.kind ++ decl.namelessFaults)
    { name := decl.name.name, params, result, scope := site.scope, location := decl.location
      isCallback := decl.callback, isExported := decl.exported }

end FunctionDecl

/-- Declares a function in the current scope. -/
def SymbolTable.declareFunction (settings : AnalysisSettings) (decl : FunctionDecl) :
    TableM (List Fault) FunctionSymbol :=
  introduce (decl.symbol settings) .function

end SemanticCheck
