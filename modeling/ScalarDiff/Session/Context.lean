import ScalarDiff.Bytecode.Compile
import ScalarDiff.Expr.Parse
import ScalarDiff.Session.Program

/-!
# Compilation contexts

A context holds the settings new programs start from (the differentiation mode, the
finite-difference step and the nesting limit) and the text of the last compile failure.

A context is created from optional settings over an environment (`ScalarDiff.Settings`):
* a mode that is missing is the environment's; a given one that names no mode is automatic;
* the step starts as the environment's and is then replaced by a given one if it is usable;
* a nesting limit is used when it is a number above zero (a truth value counting as `0` or `1`),
  and the environment's otherwise; a given value that is no number cannot be compared with zero
  and aborts.

Compiling reads the source with the context's nesting limit over the declared names and
compiles the tree with the same limit. The source must be a text; the names are a single text or
a sequence of texts (a dictionary gives its keys), and anything else used as a sequence aborts.
Names are not checked beyond being texts: a name that is no identifier can never be referred
to, and a repeated name refers to its last position.
-/

namespace ScalarDiff

/-- Why a compile failed: at reading or at compiling. -/
inductive BuildError where
  | parse (e : Source.ParseError)
  | compile (e : CompileError)

/-- The text of a compile failure, as the last failure is kept. -/
def BuildError.text : BuildError → String
  | .parse e => e.text
  | .compile e => e.message

/-- Settings for new programs and the last compile failure. -/
structure Context where
  mode : Mode
  epsilon : Float
  maxDepth : NestingLimit
  lastError : String

namespace Context

/-- A context from optional settings (`null` meaning not given) over an environment. -/
def create (env : Env) (mode epsilon maxDepth : Datum) : Except Abort Context := do
  let m : Mode := match mode with
    | .none => Settings.mode env
    | d => (Mode.ofDatum? d).getD .auto
  let h ← match epsilon with
    | .none => pure (Settings.epsilon env)
    | d => do
      let step ← Settings.step? d
      pure (step.getD (Settings.epsilon env))
  let depth ← match maxDepth with
    | .none => pure (.whole (Settings.maxDepth env))
    | d =>
      match NestingLimit.ofDatum? d with
      | some l => pure (if l.positive then l else .whole (Settings.maxDepth env))
      | none => throw (.notComparable ">" d.typeName "int")
  pure ⟨m, h, depth, ""⟩

/-- The context with another mode, if the value names one. -/
def withMode? (c : Context) (mode : Datum) : Option Context :=
  (fun m => { c with mode := m }) <$> Mode.ofDatum? mode

/-- The context with another finite-difference step, if the value is a usable one. -/
def withEpsilon? (c : Context) (epsilon : Datum) : Except Abort (Option Context) := do
  let step ← Settings.step? epsilon
  pure ((fun h => { c with epsilon := h }) <$> step)

/-- The declared names: a text is one name, a list its items, a dictionary its keys; anything
else is no sequence. -/
def namesOf : Datum → Except Abort (List Datum)
  | .text s => .ok [.text s]
  | .list items => .ok items
  | .dict entries => .ok (entries.map fun e => .text e.1)
  | d => .error (.notIterable d.typeName)

/-- The names as texts, or the type of the first that is none. -/
def textNames : List Datum → Except String (List String)
  | [] => .ok []
  | .text s :: rest => (s :: ·) <$> textNames rest
  | d :: _ => .error d.typeName

/-- Build a program from a source and declared names with the context's settings. -/
def build (c : Context) (source declared : Datum) : Except Abort (Except BuildError Program) := do
  let .text text := source
    | pure (.error (.parse ⟨.sourceNotText, 0, 0, some source.typeName⟩))
  let items ← namesOf declared
  match textNames items with
  | .error t => pure (.error (.parse ⟨.nameNotText, 0, 0, some t⟩))
  | .ok names =>
    match Expr.parse text names c.maxDepth with
    | .error e => pure (.error (.parse e))
    | .ok e =>
      match e.compile (names.length : Int) c.maxDepth with
      | .error (.unreadable a) => throw a
      | .error e => pure (.error (.compile e))
      | .ok code => pure (.ok ⟨code, text, names, c.mode, c.epsilon⟩)

/-- Compile in a context: the result, and the context keeping the failure's text, or an empty
text after a success. -/
def compile (c : Context) (source declared : Datum) :
    Except Abort (Context × Except BuildError Program) := do
  let r ← c.build source declared
  match r with
  | .ok p => pure ({ c with lastError := "" }, .ok p)
  | .error e => pure ({ c with lastError := e.text }, .error e)

end Context

end ScalarDiff
