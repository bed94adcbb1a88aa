import NestedFilter.Json.Reader
import NestedFilter.Json.Value

/-!
# Settings

What the compilation of filters and the assembly of requests can be told by a file. Every
setting has a default, and a file names only those that differ.

A file holds a JSON object with members for settings, or an array that gives the first few of them
by their position (`NestedFilter.Settings.fieldNames`). Members that name no setting are passed
over; a member that comes twice, or with a value of another kind, spoils the whole file. There is
no reading of half of it: a file gives all settings or none, and the error does not tell which
member was at fault. It does tell a file that is not there from one that can not be read, and both
from one that can be read and gives no settings (`NestedFilter.SettingsError`).
-/

namespace NestedFilter

/-- The settings. -/
structure Settings where
  /-- The flags that go with every regular expression. -/
  regexpFlags : String := "ALL"
  /-- Whether regular expressions disregard case. -/
  regexpCaseInsensitive : Bool := true
  /-- The field that a time window is about. -/
  timestampField : String := "created_at"
  /-- The format of the dates in time windows and sort orders. -/
  dateFormat : String := "strict_date_optional_time"
  /-- The size of a page where none is asked for. -/
  defaultSize : Nat := 10
  /-- The largest size of a page. -/
  maxSize : Nat := 10000
deriving DecidableEq, Repr, Inhabited

namespace Settings

/-- The names of the settings in a file, in the order in which a list gives them. -/
def fieldNames : List String :=
  ["regexp_flags", "regexp_case_insensitive", "timestamp_field", "date_format",
    "default_size", "max_size"]

/-- The settings that a JSON value gives; what it does not give has its default. -/
def ofWritten? (value : Json.Written) : Option Settings := do
  let default : Settings := {}
  match ← value.fields? fieldNames with
  | [flags, insensitive, timestamp, format, size, max] =>
    return {
      regexpFlags := ← Json.Written.field? (·.string?) default.regexpFlags flags
      regexpCaseInsensitive :=
        ← Json.Written.field? (·.bool?) default.regexpCaseInsensitive insensitive
      timestampField := ← Json.Written.field? (·.string?) default.timestampField timestamp
      dateFormat := ← Json.Written.field? (·.string?) default.dateFormat format
      defaultSize := ← Json.Written.field? (·.word?) default.defaultSize size
      maxSize := ← Json.Written.field? (·.word?) default.maxSize max }
  | _ => none

/-- The settings as a JSON value. -/
def toJson (s : Settings) : Json :=
  .object
    [("regexp_flags", .string s.regexpFlags),
      ("regexp_case_insensitive", .bool s.regexpCaseInsensitive),
      ("timestamp_field", .string s.timestampField),
      ("date_format", .string s.dateFormat),
      ("default_size", .number s.defaultSize),
      ("max_size", .number s.maxSize)]

end Settings

/-! ### Settings from a file -/

/-- What is found at the path of a file. -/
inductive FileContent where
  /-- Nothing. -/
  | absent
  /-- Something that cannot be read as a file, such as a directory. -/
  | unreadable
  /-- A file with the given bytes. -/
  | bytes (content : ByteArray)

/-- Why a file gives no settings. -/
inductive SettingsError where
  /-- There is nothing at the path. -/
  | notFound (path : String)
  /-- What is at the path is no file, or no text. -/
  | unreadable (path : String)
  /-- The text is no JSON value that gives settings. -/
  | malformed (path : String)
deriving DecidableEq, Repr, Inhabited

/-- The error in words. -/
def SettingsError.message : SettingsError → String
  | .notFound path => "配置文件不存在: " ++ path
  | .unreadable path => "无法读取配置文件 " ++ path
  | .malformed path => "无法解析JSON配置文件 " ++ path

namespace Settings

/-- The settings that the file at a path gives. -/
def load (path : String) : FileContent → Except SettingsError Settings
  | .absent => .error (.notFound path)
  | .unreadable => .error (.unreadable path)
  | .bytes content =>
    match String.fromUTF8? content with
    | none => .error (.unreadable path)
    | some text =>
      match (Json.read? text).bind ofWritten? with
      | none => .error (.malformed path)
      | some settings => .ok settings

/-- The settings that the file at a path gives, or the defaults if it gives none. -/
def loadOrDefault (path : String) (content : FileContent) : Settings :=
  match load path content with
  | .ok settings => settings
  | .error _ => {}

end Settings

end NestedFilter
