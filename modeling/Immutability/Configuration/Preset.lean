import Immutability.ClassName
import Immutability.Text.Letters

/-!
# Presets

A preset is a named set of well-known classes, with those that are immutable and those that are
not.
-/

namespace Immutability

/-- The named sets of well-known classes. -/
inductive Preset where
  | jdk
  | guava
  deriving DecidableEq, Repr

namespace Preset

/-- All presets. -/
def all : List Preset := [jdk, guava]

/-- The name of a preset. -/
def keyword : Preset → String
  | jdk => "jdk"
  | guava => "guava"

/-- The complaint about a word that names no preset. -/
def unknown (word : String) : String := s!"unknown preset: {word}"

/-- The preset with this name or a synonym of it, whatever its case. -/
def parse? (word : String) : Option Preset :=
  match Text.lower (Text.trim word) with
  | "jdk" | "java" => some jdk
  | "guava" => some guava
  | _ => none

/-- The standard classes that are immutable. -/
def jdkImmutable : List String :=
  ["java.lang.Object", "java.lang.String", "java.lang.Boolean", "java.lang.Byte",
   "java.lang.Character", "java.lang.Short", "java.lang.Integer", "java.lang.Long",
   "java.lang.Float", "java.lang.Double", "java.lang.Void", "java.lang.Class",
   "java.lang.StackTraceElement", "java.math.BigDecimal", "java.math.BigInteger", "java.io.File",
   "java.net.URI", "java.util.UUID", "java.util.Locale", "java.util.Optional",
   "java.util.OptionalInt", "java.util.OptionalLong", "java.util.OptionalDouble",
   "java.util.regex.Pattern", "java.time.Instant", "java.time.Duration", "java.time.Period",
   "java.time.LocalDate", "java.time.LocalTime", "java.time.LocalDateTime",
   "java.time.ZonedDateTime", "java.time.OffsetDateTime", "java.time.OffsetTime",
   "java.time.Year", "java.time.YearMonth", "java.time.MonthDay", "java.time.ZoneOffset",
   "java.time.DayOfWeek", "java.time.Month"]

/-- The standard classes that are mutable. -/
def jdkMutable : List String :=
  ["java.lang.StringBuilder", "java.lang.StringBuffer", "java.lang.Thread", "java.util.ArrayList",
   "java.util.LinkedList", "java.util.Vector", "java.util.Stack", "java.util.ArrayDeque",
   "java.util.PriorityQueue", "java.util.HashMap", "java.util.LinkedHashMap", "java.util.TreeMap",
   "java.util.Hashtable", "java.util.Properties", "java.util.HashSet", "java.util.LinkedHashSet",
   "java.util.TreeSet", "java.util.BitSet", "java.util.Date", "java.util.Calendar",
   "java.util.GregorianCalendar", "java.util.concurrent.ConcurrentHashMap",
   "java.util.concurrent.CopyOnWriteArrayList", "java.util.concurrent.atomic.AtomicBoolean",
   "java.util.concurrent.atomic.AtomicInteger", "java.util.concurrent.atomic.AtomicLong",
   "java.util.concurrent.atomic.AtomicReference", "java.sql.Date", "java.sql.Timestamp"]

/-- The immutable collections and values of Guava. -/
def guavaImmutable : List String :=
  ["com.google.common.collect.ImmutableCollection", "com.google.common.collect.ImmutableList",
   "com.google.common.collect.ImmutableSet", "com.google.common.collect.ImmutableSortedSet",
   "com.google.common.collect.ImmutableMap", "com.google.common.collect.ImmutableSortedMap",
   "com.google.common.collect.ImmutableBiMap", "com.google.common.collect.ImmutableMultiset",
   "com.google.common.collect.ImmutableMultimap",
   "com.google.common.collect.ImmutableListMultimap",
   "com.google.common.collect.ImmutableSetMultimap", "com.google.common.collect.ImmutableTable",
   "com.google.common.collect.ImmutableRangeSet", "com.google.common.collect.Range",
   "com.google.common.base.Optional", "com.google.common.hash.HashCode",
   "com.google.common.net.HostAndPort", "com.google.common.net.MediaType",
   "com.google.common.primitives.ImmutableIntArray",
   "com.google.common.primitives.ImmutableLongArray",
   "com.google.common.primitives.ImmutableDoubleArray"]

/-- The classes that a preset declares immutable. -/
def immutableClasses : Preset → List ClassName
  | jdk => jdkImmutable.map .ofString
  | guava => guavaImmutable.map .ofString

/-- The classes that a preset declares mutable. -/
def mutableClasses : Preset → List ClassName
  | jdk => jdkMutable.map .ofString
  | guava => []

end Preset

end Immutability
