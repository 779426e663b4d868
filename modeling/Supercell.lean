import Supercell.Common.Returns
import Supercell.Common.OrderedMap
import Supercell.Common.Sections
import Supercell.Common.Segments
import Supercell.Common.MergeSort
import Supercell.Common.Bracketing
import Supercell.Common.Builds
import Supercell.Common.Literals
import Supercell.Common.Replace
import Supercell.Common.SortedMap
import Supercell.Thrift.Protocol
import Supercell.Thrift.Codec
import Supercell.Thrift.Struct
import Supercell.Thrift.Binary
import Supercell.Thrift.Service
import Supercell.Thrift.Connection
import Supercell.Cassandra.Types
import Supercell.Cassandra.Methods
import Supercell.Cassandra.Sessions
import Supercell.CMake.Text
import Supercell.CMake.Scope
import Supercell.CMake.Holds
import Supercell.CMake.Path
import Supercell.CMake.Process
import Supercell.CMake.CustomCommand
import Supercell.CMake.Recipes
import Supercell.Hashmap.Macros
import Supercell.Hashmap.Records
import Supercell.Hashmap.Search
import Supercell.Hashmap.Operations
import Supercell.Hashmap.History
import Supercell.Hashmap.Guarantees
import Supercell.Hashmap.Transcript
import Supercell.Minizip.Search
import Supercell.Minizip.EndRecord
import Supercell.Minizip.Appending
import Supercell.Minizip.Writing
import Supercell.Minizip.Reading
import Supercell.Options.Macros
import Supercell.Options.Partition
import Supercell.Options.Keywords
import Supercell.Games.NameTable
import Supercell.Thrust.Types
import Supercell.Thrust.SegmentedScan
import Supercell.Thrust.Sorts
import Supercell.Thrust.ArgumentOrder
import Supercell.Thrust.Scan
import Supercell.Thrust.Counts
import Supercell.Thrust.Extrema
import Supercell.Tests.Scripts
import Supercell.Tests.Macros
import Supercell.Tests.Calls
import Supercell.Tests.Matching
import Supercell.Tests.Agreement
import Supercell.Tests.Interleaving
import Supercell.Tests.Subjects
import Supercell.Tests.Runs
import Supercell.Tests.Targets
import Supercell.Generators.Macros
import Supercell.Generators.Names
import Supercell.Generators.CommandLines
import Supercell.Zscript.Sources
import Supercell.Zscript.Reencoding
import Supercell.Zscript.AbsolutePaths
import Supercell.Zscript.Native
import Supercell.Zscript.NativeCalls
import Supercell.Zscript.ScriptRules
import Supercell.Zscript.Modules
import Supercell.Zscript.Dispatch
import Supercell.Zscript.Isolation
import Supercell.Zscript.Archive
import Supercell.Zscript.Bitcode
import Supercell.Zscript.Pipelines
import Supercell.Zscript.Incremental
import Supercell.Zscript.StringTable
import Supercell.Headers.Macrodef
import Supercell.Headers.EncryptedPtx
