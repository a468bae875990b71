import JSEngine.Common.Machine
import JSEngine.Common.Lookup
import JSEngine.Java.HashMap
import JSEngine.WeakMap.Identity
import JSEngine.Memo.Memoize
import JSEngine.Members.Lookups
import JSEngine.Members.Coercions
import JSEngine.Context.Handles
import JSEngine.Context.Isolation
import JSEngine.QuickJS.Objects
import JSEngine.QuickJS.ToObject
import JSEngine.QuickJS.Stash
import JSEngine.QuickJS.Retention
import JSEngine.QuickJS.RoundTrip
import JSEngine.Duktape.PopObject
import JSEngine.Duktape.Stash
import JSEngine.Duktape.Retention
import JSEngine.Bridge.Values
import JSEngine.Coerce.Tables
import JSEngine.Common.Pass
import JSEngine.Coerce.Routes
import JSEngine.Coerce.Methods
import JSEngine.Coerce.Functions
import JSEngine.Coerce.Reads
import JSEngine.Coerce.Slots
import JSEngine.Common.ModifiedUtf8
import JSEngine.Scalars.Strings
import JSEngine.Common.Rounding
import JSEngine.Scalars.Values
import JSEngine.Scalars.RoundTrip
import JSEngine.Jobs.Model
import JSEngine.Jobs.RunToCompletion
import JSEngine.Jobs.Forgotten
import JSEngine.Jobs.Refinement
import JSEngine.Coerce.Registrations
import JSEngine.Coerce.Wrappers
import JSEngine.Coerce.Overloads
import JSEngine.Coerce.Receivers
import JSEngine.Coerce.Placement
import JSEngine.Common.Ledger
import JSEngine.Duktape.Allocator
import JSEngine.Common.Effect
import JSEngine.Duktape.ValueStack
import JSEngine.Duktape.Switcher
import JSEngine.Common.Ownership
import JSEngine.QuickJS.Ownership
import JSEngine.QuickJS.Leaks
import JSEngine.QuickJS.Balance
import JSEngine.Common.FloatingPoint
import JSEngine.Keys.Numbers
import JSEngine.Keys.Addressing
import JSEngine.Exceptions.StackTrace
import JSEngine.Exceptions.Thrown
import JSEngine.Exceptions.Property
import JSEngine.Exceptions.Identity
import JSEngine.Exceptions.Splicing
import JSEngine.WeakMap.Purging
import JSEngine.Coerce.MethodObject
import JSEngine.Context.Profiling
import JSEngine.Iteration.AsIterable
import JSEngine.Proxies.ObjectMethods
import JSEngine.Common.Chunks
import JSEngine.Common.Hex
import JSEngine.Debugger.Framing
import JSEngine.Debugger.References
import JSEngine.Common.Pieces
import JSEngine.Debugger.Breakpoints
import JSEngine.Debugger.LineEncoding
import JSEngine.Collector.Objects
import JSEngine.Collector.Releasing
import JSEngine.Collector.Cycles
import JSEngine.Collector.Heap
import JSEngine.Debugger.Conversation
import JSEngine.Debugger.Stepping
import JSEngine.Atoms.Entries
import JSEngine.Atoms.Bytes
import JSEngine.Atoms.Interning
import JSEngine.Atoms.Predefined
import JSEngine.Atoms.Runs
import JSEngine.Collections.Keys
import JSEngine.Collections.MapData
