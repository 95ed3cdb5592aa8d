/-!
# Names that well-known namespaces provide

* `builtinNames` : for each namespace or static class, the names that a directive for it makes
  available. A name may be listed under several;
* `builtin?` : the names of one of them;
* `isOpen` : a namespace that provides more names than any list can hold.
-/

namespace CodeSmell.Project

/-- Well-known namespaces and static classes with the names they provide. Extension methods
count: calling one is a use of its namespace. -/
def builtinNames : List (String × List String) := [
  ("System", ["Action", "Activator", "AppDomain", "ArgumentException", "ArgumentNullException",
    "ArgumentOutOfRangeException", "Array", "Attribute", "BitConverter", "Boolean", "Buffer",
    "Byte", "Char", "Console", "Convert", "DateTime", "DateTimeOffset", "DayOfWeek", "Decimal",
    "Delegate", "Double", "Enum", "Environment", "EventArgs", "Flags", "EventHandler",
    "Exception", "FormatException", "Func", "GC", "Guid", "IComparable", "IDisposable",
    "IEquatable", "IFormatProvider", "Int16", "Int32", "Int64", "IntPtr",
    "InvalidCastException", "InvalidOperationException", "Lazy", "Math", "MathF",
    "NotImplementedException", "NotSupportedException", "Nullable", "NullReferenceException",
    "Object", "ObjectDisposedException", "Obsolete", "OperationCanceledException", "Predicate",
    "Random", "Serializable", "Single", "Span", "ReadOnlySpan", "String", "StringComparison",
    "StringComparer", "StringSplitOptions", "TimeSpan", "TimeoutException", "Tuple", "Type",
    "UInt16", "UInt32", "UInt64", "Uri", "ValueTuple", "Version", "WeakReference"]),
  ("System.Collections", ["ArrayList", "Hashtable", "ICollection", "IEnumerable", "IEnumerator",
    "IList", "Queue", "Stack"]),
  ("System.Collections.Generic", ["Comparer", "Dictionary", "EqualityComparer", "HashSet",
    "ICollection", "IComparer", "IDictionary", "IEnumerable", "IEnumerator",
    "IEqualityComparer", "IList", "IReadOnlyCollection", "IReadOnlyDictionary", "IReadOnlyList",
    "ISet", "KeyNotFoundException", "KeyValuePair", "LinkedList", "List", "Queue",
    "SortedDictionary", "SortedList", "SortedSet", "Stack"]),
  ("System.Collections.ObjectModel", ["Collection", "ObservableCollection",
    "ReadOnlyCollection", "ReadOnlyObservableCollection"]),
  ("System.Collections.Concurrent", ["BlockingCollection", "ConcurrentBag",
    "ConcurrentDictionary", "ConcurrentQueue", "ConcurrentStack"]),
  ("System.Linq", ["Aggregate", "All", "Any", "Append", "AsEnumerable", "AsQueryable",
    "Average", "Cast", "Chunk", "Concat", "Contains", "Count", "DefaultIfEmpty", "Distinct",
    "DistinctBy", "ElementAt", "ElementAtOrDefault", "Enumerable", "Except", "ExceptBy",
    "First", "FirstOrDefault", "GroupBy", "GroupJoin", "IGrouping", "ILookup",
    "IOrderedEnumerable", "IQueryable", "Intersect", "IntersectBy", "Join", "Last",
    "LastOrDefault", "LongCount", "Max", "MaxBy", "Min", "MinBy", "OfType", "Order", "OrderBy",
    "OrderByDescending", "OrderDescending", "Prepend", "Queryable", "Reverse", "Select",
    "SelectMany", "SequenceEqual", "Single", "SingleOrDefault", "Skip", "SkipLast", "SkipWhile",
    "Sum", "Take", "TakeLast", "TakeWhile", "ThenBy", "ThenByDescending", "ToArray",
    "ToDictionary", "ToHashSet", "ToList", "ToLookup", "TryGetNonEnumeratedCount", "Union",
    "UnionBy", "Where", "Zip"]),
  ("System.IO", ["BinaryReader", "BinaryWriter", "Directory", "DirectoryInfo",
    "DirectoryNotFoundException", "File", "FileAccess", "FileInfo", "FileMode",
    "FileNotFoundException", "FileShare", "FileStream", "FileSystemWatcher", "IOException",
    "MemoryStream", "Path", "SearchOption", "Stream", "StreamReader", "StreamWriter",
    "StringReader", "StringWriter", "TextReader", "TextWriter"]),
  ("System.Text", ["Encoding", "StringBuilder", "UTF8Encoding"]),
  ("System.Text.RegularExpressions", ["Capture", "Group", "Match", "MatchCollection", "Regex",
    "RegexOptions"]),
  ("System.Text.Json", ["JsonDocument", "JsonElement", "JsonException", "JsonSerializer",
    "JsonSerializerOptions"]),
  ("System.Threading", ["CancellationToken", "CancellationTokenSource", "Interlocked",
    "Monitor", "Mutex", "SemaphoreSlim", "SynchronizationContext", "Thread", "ThreadPool",
    "Timer", "Volatile"]),
  ("System.Threading.Tasks", ["Parallel", "Task", "TaskCompletionSource", "TaskFactory",
    "TaskScheduler", "ValueTask"]),
  ("System.Diagnostics", ["Conditional", "Debug", "Debugger", "Process", "ProcessStartInfo",
    "Stopwatch", "Trace"]),
  ("System.ComponentModel", ["BackgroundWorker", "CancelEventArgs", "Description",
    "DesignerProperties", "INotifyPropertyChanged", "PropertyChangedEventArgs",
    "PropertyChangedEventHandler", "TypeConverter"]),
  ("System.Runtime.CompilerServices", ["CallerMemberName", "CallerFilePath", "CallerLineNumber",
    "MethodImpl", "MethodImplOptions"]),
  ("System.Runtime.InteropServices", ["CharSet", "ComVisible", "DllImport", "GCHandle", "Guid",
    "LayoutKind", "Marshal", "MarshalAs", "StructLayout", "UnmanagedType"]),
  ("System.Net.Http", ["HttpClient", "HttpContent", "HttpMethod", "HttpRequestMessage",
    "HttpResponseMessage", "StringContent"]),
  ("System.Windows", ["Application", "DependencyObject", "DependencyProperty",
    "FrameworkElement", "HorizontalAlignment", "MessageBox", "MessageBoxButton",
    "MessageBoxResult", "Point", "PropertyMetadata", "Rect", "ResourceDictionary",
    "RoutedEventArgs", "Size", "SizeChangedEventArgs", "Thickness", "UIElement",
    "VerticalAlignment", "Visibility", "Window", "WindowState"]),
  ("System.Windows.Controls", ["Border", "Button", "Canvas", "CheckBox", "ComboBox",
    "ContentControl", "Control", "Grid", "Image", "InkCanvas", "InkCanvasEditingMode",
    "ItemsControl", "Label", "ListBox", "Panel", "ScrollViewer", "Slider", "StackPanel",
    "TextBlock", "TextBox", "UserControl"]),
  ("System.Windows.Input", ["ICommand", "Key", "KeyEventArgs", "Keyboard", "ModifierKeys",
    "Mouse", "MouseButtonEventArgs", "MouseEventArgs", "StylusPoint", "StylusPointCollection",
    "TouchEventArgs"]),
  ("System.Windows.Ink", ["DrawingAttributes", "Stroke", "StrokeCollection"]),
  ("System.Windows.Media", ["Brush", "Brushes", "Color", "ColorConverter", "Colors",
    "DrawingContext", "DrawingVisual", "Geometry", "ImageSource", "Pen", "SolidColorBrush",
    "VisualTreeHelper"]),
  ("System.Windows.Media.Imaging", ["BitmapFrame", "BitmapImage", "BitmapSource",
    "PngBitmapEncoder", "RenderTargetBitmap"]),
  ("System.Windows.Shapes", ["Ellipse", "Line", "Path", "Polygon", "Polyline", "Rectangle",
    "Shape"]),
  ("System.Windows.Threading", ["Dispatcher", "DispatcherPriority", "DispatcherTimer"]),
  ("System.Math", ["Abs", "Acos", "Asin", "Atan", "Atan2", "Ceiling", "Clamp", "Cos", "E",
    "Exp", "Floor", "Log", "Log10", "Max", "Min", "PI", "Pow", "Round", "Sign", "Sin", "Sqrt",
    "Tan", "Truncate"]),
  ("System.Console", ["Beep", "Clear", "ReadKey", "ReadLine", "Write", "WriteLine"]),
  ("Xunit", ["Assert", "Fact", "InlineData", "Theory", "IClassFixture"]),
  ("NUnit.Framework", ["Assert", "SetUp", "TearDown", "Test", "TestCase", "TestFixture", "Is",
    "Has"]),
  ("Microsoft.VisualStudio.TestTools.UnitTesting", ["Assert", "TestClass", "TestInitialize",
    "TestCleanup", "TestMethod", "DataRow", "DataTestMethod"])]

def builtin? (path : String) : Option (List String) :=
  builtinNames.lookup path

/-- Whether a namespace provides more names than its list has. -/
def isOpen (path : String) : Bool :=
  path == "System"

end CodeSmell.Project
