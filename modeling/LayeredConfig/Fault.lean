import LayeredConfig.Origin
import LayeredConfig.Shape
import LayeredConfig.Number.Decimal
import LayeredConfig.Text.Quoted

/-!
# Faults

Every way in which an operation can fail, each with the values its message names. `Fault.category`
says what kind of failure it is and `Fault.message` words it. A failure of the surroundings (a
reader of some format, the disk, a type checker) has a kind but no wording of its own; where such a
failure is the cause of another one, `Fault.detail` stands for its words.
-/

namespace LayeredConfig

/-- Kinds of failure, as a caller tells them apart. -/
inductive Category
  | decoding | encoding | notCompiled | codecNotFound | invalidInput | fileMissing
  | duplicateFound | notFound | typeMismatch | conflictingDefinitions | expansionNotConverged
  | sourceUnreadable
  | fileAbsent | permissionDenied | isDirectory | notDirectory | system
  | wrongType | wrongValue | unprintableText | brokenScan | brokenStructure | brokenComposition
  | brokenConstruction | wrongKey | outOfBounds | outOfRange | missingAttribute | unencodable
  | inexactNumber
  | nestedTooDeeply
  deriving DecidableEq, Repr, Inhabited

/-- Whether a failure is one of this library's own. -/
def Category.isOwn : Category → Bool
  | .decoding | .encoding | .notCompiled | .codecNotFound | .invalidInput | .fileMissing
  | .duplicateFound | .notFound | .typeMismatch | .conflictingDefinitions
  | .expansionNotConverged | .sourceUnreadable => true
  | _ => false

/-- Whether a failure comes from a filesystem. -/
def Category.isFilesystem : Category → Bool
  | .fileAbsent | .permissionDenied | .isDirectory | .notDirectory | .system => true
  | _ => false

inductive Fault
  -- looking up a key
  | keyNotFound (path : String)
  | indexOutOfRange (path : String) (index : Nat)
  | indexExpected (path segment : String)
  | scalarEntered (path : String)
  -- shapes and scalars
  | shapesCollide (incoming base : Shape) (path : String)
  | severalShapes
  | unsupportedScalar (typeName : String)
  -- reading and writing documents
  | notUtf8 (name : String)
  | malformed (format name : String)
  | rootNotMap (name : String)
  | keyNotScalar (origin : Origin)
  | unsupportedTagged (origin : Origin) (tag : String)
  | notFinite (number : Decimal)
  /-- A value that a format has no form for. -/
  | notWritable (format : String)
  | decoderFailed (extension source name : String) (cause : Fault)
  | noDecoder (extension : String)
  | noEncoder (extension : String)
  -- expanding placeholders
  | providerMissing
  | delimiterEmpty
  | unsupportedProvider (typeName : String)
  | notConverged (label : String) (maximum : Nat)
  -- ordering records
  | lessMissing
  -- collecting files
  | filesystemMissing
  | invalidPath (path : String)
  | requiredFileMissing (path : String)
  | directoryNotFile (path : String)
  | cannotInspect (path : String) (cause : Fault)
  | cannotList (path : String) (cause : Fault)
  | cannotRead (path : String) (cause : Fault)
  | pathFault (category : Category) (path : String)
  | inputOutput (path : String)
  -- buffers and values
  | bufferUnnamed
  | bufferWithoutProducer (name : String)
  | bufferWithoutData (name : String)
  | valueUnnamed
  | valueWithoutProducer (name : String)
  /-- A key that is to be split at nothing. -/
  | separatorEmpty
  | flattenHookFailed (typeName : String) (cause : Fault)
  | conversionNeedsHook (typeName : String)
  | notConfiguration (typeName : String)
  | fieldsShareKey (key : String)
  | fieldIsNull (owner field : String)
  -- extracting typed values
  | decodeHookFailed (key : String) (cause : Fault)
  | conversionRefused (key typeName found : String)
  | unusedKeys (key typeName : String) (unused : List String)
  | unsetFields (key typeName : String) (fields : List String)
  | doesNotFit (key typeName : String)
  | validationFailed (key : String) (cause : Fault)
  -- documentation
  | documentationMissing
  | documentationNotObject (typeName : String)
  | documentationTypeUnknown (tag : String)
  | documentationChildrenNotObject
  | documentationMalformed
  | documentationRootWrong
  | arrayMeetsMap
  | arrayKeyInMap
  | embeddedKeyInMap
  -- options
  | notConfigOption (shown : String)
  | notMarshalOption (shown : String)
  | notUnmarshalOption (shown : String)
  | optionRefused (label : String)
  | keyDelimiterEmpty
  | functionMissing (option : String)
  | tagNameEmpty
  | invalidApplication (name : String)
  | notCompiledYet (operation : String)
  /-- A failure raised by a function that the caller supplied. -/
  | raised (category : Category) (text : String)
  /-- A failure of the surroundings, whose wording is not this library's. -/
  | foreign (category : Category)
  deriving Repr, Inhabited

namespace Fault

/-- Stands for words that come from the surroundings. -/
def detail : String := "<detail>"

def category : Fault → Category
  | keyNotFound _ | indexOutOfRange .. => .notFound
  | indexExpected .. | scalarEntered _ | shapesCollide .. | severalShapes => .typeMismatch
  | unsupportedScalar _ => .wrongType
  | notUtf8 _ | malformed .. | rootNotMap _ | keyNotScalar _ | unsupportedTagged ..
  | decoderFailed .. => .decoding
  | notFinite _ | notWritable _ => .encoding
  | noDecoder _ | noEncoder _ => .codecNotFound
  | notConverged .. => .expansionNotConverged
  | requiredFileMissing _ => .fileMissing
  | cannotInspect .. | cannotList .. | cannotRead .. => .sourceUnreadable
  | pathFault category _ => category
  | inputOutput _ => .system
  | fieldsShareKey _ => .duplicateFound
  | decodeHookFailed .. | conversionRefused .. | unusedKeys .. | unsetFields .. | doesNotFit ..
  | validationFailed .. => .decoding
  | arrayMeetsMap => .conflictingDefinitions
  | notCompiledYet _ => .notCompiled
  | separatorEmpty => .wrongValue
  | raised category _ | foreign category => category
  | providerMissing | delimiterEmpty | unsupportedProvider _ | lessMissing | filesystemMissing
  | invalidPath _ | directoryNotFile _ | bufferUnnamed | bufferWithoutProducer _
  | bufferWithoutData _ | valueUnnamed | valueWithoutProducer _ | flattenHookFailed ..
  | conversionNeedsHook _ | notConfiguration _ | fieldIsNull .. | documentationMissing
  | documentationNotObject _ | documentationTypeUnknown _ | documentationChildrenNotObject
  | documentationMalformed | documentationRootWrong | arrayKeyInMap | embeddedKeyInMap
  | notConfigOption _ | notMarshalOption _ | notUnmarshalOption _ | optionRefused _
  | keyDelimiterEmpty | functionMissing _ | tagNameEmpty | invalidApplication _ => .invalidInput

/-- The wording of a failure, with `detail` for words of the surroundings. -/
def text : Fault → String
  | keyNotFound path => s!"key '{path}' not found"
  | indexOutOfRange path index => s!"key '{path}' not found: index {index} out of range"
  | indexExpected path segment => s!"key '{path}': expected an array index, got '{segment}'"
  | scalarEntered path => s!"key '{path}': cannot descend into a scalar value"
  | shapesCollide incoming base path => s!"cannot merge {incoming} into {base} at key '{path}'"
  | severalShapes =>
    "conflicting definitions: a node holds exactly one of scalar, map or array"
  | unsupportedScalar typeName => s!"unsupported scalar type: {typeName}"
  | notUtf8 name => s!"{name} is not valid UTF-8: {detail}"
  | malformed format name => s!"Invalid {format} in {name}: {detail}"
  | rootNotMap name => s!"File {name} did not produce a mapping"
  | keyNotScalar origin => s!"{origin}: map keys must be scalars"
  | unsupportedTagged origin tag => s!"{origin}: unsupported YAML value ({tag})"
  | notFinite number => s!"cannot encode JSON: {number} is not a finite number"
  | notWritable format => s!"cannot encode {format}: {detail}"
  | decoderFailed extension source name cause =>
    s!"decoder error for extension '{extension}' processing {source} '{name}': " ++ cause.text
  | noDecoder extension => s!"no decoder registered for extension '{extension}'"
  | noEncoder extension => s!"no encoder registered for extension '{extension}'"
  | providerMissing => "an expansion needs a provider"
  | delimiterEmpty => "expansion delimiters must not be empty"
  | unsupportedProvider typeName => s!"unsupported expansion provider: {typeName}"
  | notConverged label maximum =>
    s!"expansion '{label}' did not converge after {maximum} iterations"
  | lessMissing => "a custom record sort needs a less-than function"
  | filesystemMissing => "a file group needs a filesystem"
  | invalidPath path => s!"path '{path}' is not a valid relative path"
  | requiredFileMissing path => s!"file '{path}' does not exist"
  | directoryNotFile path => s!"path '{path}' is a directory, expected a file"
  | cannotInspect path cause => s!"cannot inspect '{path}': " ++ cause.text
  | cannotList path cause => s!"cannot list directory '{path}': " ++ cause.text
  | cannotRead path cause => s!"cannot read file '{path}': " ++ cause.text
  | pathFault _ path => path
  | inputOutput path => "[Errno 5] Input/output error: " ++ Text.quoted path
  | bufferUnnamed => "a buffer needs a non-empty record name"
  | bufferWithoutProducer name => s!"buffer '{name}' needs a producer function"
  | bufferWithoutData name => s!"buffer '{name}' needs data"
  | valueUnnamed => "a value needs a non-empty record name"
  | valueWithoutProducer name => s!"value '{name}' needs a producer function"
  | separatorEmpty => "empty separator"
  | flattenHookFailed typeName cause => s!"decode hook failed for {typeName}: " ++ cause.text
  | conversionNeedsHook typeName =>
    s!"value of type {typeName} needs a decode hook when weak typing is off"
  | notConfiguration typeName =>
    s!"value of type {typeName} cannot be used as configuration"
  | fieldsShareKey key => s!"more than one field maps to the key '{key}'"
  | fieldIsNull owner field => s!"{owner}.{field} is not set"
  | decodeHookFailed key cause => s!"decode hook failed for key '{key}': " ++ cause.text
  | conversionRefused key typeName found =>
    s!"cannot decode key '{key}' into {typeName}: got {found} and weak typing is off"
  | unusedKeys key typeName unused =>
    s!"key '{key}': {typeName} has no field for " ++ ", ".intercalate unused
  | unsetFields key typeName fields =>
    s!"key '{key}': {typeName} fields not set: " ++ ", ".intercalate fields
  | doesNotFit key typeName => s!"cannot decode key '{key}' into {typeName}: {detail}"
  | validationFailed key cause => s!"validation of key '{key}' failed: " ++ cause.text
  | documentationMissing => "documentation must not be None"
  | documentationNotObject typeName =>
    s!"documentation node must be an object, got {typeName}"
  | documentationTypeUnknown tag => s!"unknown documentation type '{tag}'"
  | documentationChildrenNotObject => "documentation Children must be an object"
  | documentationMalformed => s!"invalid documentation JSON: {detail}"
  | documentationRootWrong => "documentation root must be unnamed and of type <root>"
  | arrayMeetsMap =>
    "conflicting definitions: array and map cannot coexist in the same object"
  | arrayKeyInMap => "array key cannot be used in a map object"
  | embeddedKeyInMap => "embedded key cannot be used in a map object"
  | notConfigOption shown => s!"not a configuration option: {shown}"
  | notMarshalOption shown => s!"not a marshal option: {shown}"
  | notUnmarshalOption shown => s!"not an unmarshal option: {shown}"
  | optionRefused label => s!"option '{label}' cannot be used with buffers or values"
  | keyDelimiterEmpty => "the key delimiter must not be empty"
  | functionMissing option => s!"{option} needs a function"
  | tagNameEmpty => "tag_name needs a non-empty metadata key"
  | invalidApplication name => s!"invalid application name '{name}'"
  | notCompiledYet operation =>
    s!"{operation} needs a compiled configuration; call compile() first"
  | raised _ text => text
  | foreign _ => detail

/-- The message of a failure; one of the surroundings has none. -/
def message? : Fault → Option String
  | foreign _ => none
  | fault => some fault.text

end Fault

end LayeredConfig
